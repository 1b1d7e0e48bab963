import Cosim.Script.Condition
import Cosim.Script.Expansion
import Cosim.Script.Printed
import Cosim.Script.Signal

/-!
# Commands of the script itself

The commands that work on the machine of a script: its folder, values, arguments and options, its
signals and jobs, and those that leave a place of the script.  `Builtin.plain?` finds them by name.
-/

namespace Cosim.Script.Builtin

open Run

/-! ## Output and options -/

def say (s : String) : Run PUnit := do
  if !(← write 1 (toData s)) then modify fun m => { m with outputLost := true }

def sayLine (s : String) : Run PUnit := say (s ++ "\n")

/-- Complains and fails without ending a script. -/
def refuse (text : String) (status : Nat := 1) : Run PUnit := do
  complain text
  setStatus status

/-- The letters of the options in front, and the arguments behind them.  An option may take the
next argument as its value. -/
def options (flags valued : String) : List String →
    Run (List (Char × String) × List String)
  | [] => pure ([], [])
  | a :: rest => do
    match a.toList with
    | ['-'] => pure ([], a :: rest)
    | ['-', '-'] => pure ([], rest)
    | '-' :: cs =>
      match cs.find? fun c => !flags.toList.contains c && !valued.toList.contains c with
      | some c => fail s!"Illegal option -{c}"
      | none =>
        match cs.findIdx? fun c => valued.toList.contains c with
        | none =>
          let (more, rest) ← options flags valued rest
          pure (cs.map (fun c => (c, "")) ++ more, rest)
        | some i =>
          let front := (cs.take i).map fun c => (c, "")
          let c := cs.getD i ' '
          match cs.drop (i + 1), rest with
          | [], [] => fail s!"No arg for -{c} option"
          | [], v :: rest =>
            let (more, rest) ← options flags valued rest
            pure (front ++ (c, v) :: more, rest)
          | v, rest =>
            let (more, rest) ← options flags valued rest
            pure (front ++ (c, String.ofList v) :: more, rest)
    | _ => pure ([], a :: rest)

/-- A number that is not negative. -/
def number (s : String) : Run Nat :=
  let n := (Calculation.digits 10 s.toList).1
  if !s.isEmpty && s.toList.all Char.isDigit && n < Nat.pow 2 31 then pure n
  else fail s!"Illegal number: {s}"

def checkName (name : String) : Run PUnit := do
  if !isName name.toList then fail s!"{name}: bad variable name"

/-- The name and the value of an argument of the form `name=value`. -/
def splitAssignment (a : String) : String × Option String :=
  let name := a.toList.takeWhile (· != '=')
  match a.toList.drop name.length with
  | [] => (a, none)
  | _ :: value => (String.ofList name, some (String.ofList value))

/-- A value between quotes, as a script can read it again. -/
def quoted (s : String) : String :=
  "\x27" ++ "\x27\"\x27\"\x27".intercalate ((s.toList.splitOn '\x27').map String.ofList) ++ "\x27"

/-! ## Folders -/

def currentFolder (_ : List String) : Run PUnit := do
  sayLine (ofText (← get).folder)
  setStatus 0

def changeFolder (arguments : List String) : Run PUnit := do
  let (_, rest) ← options "LP" "" arguments
  let m ← get
  let target := match rest.head? with
    | none => (m.value? "HOME").getD ""
    | some "-" => (m.value? "OLDPWD").getD ""
    | some s => s
  let path := if target.isEmpty then m.folder
    else Path.normalize (Path.join m.folder (toText target))
  if System.isFolder (← disk) m.folder (if target.isEmpty then "." else toText target) then
    if rest.head? == some "-" then sayLine (ofText path)
    assign "OLDPWD" (ofText m.folder)
    assign "PWD" (ofText path)
    modify fun m => { m with folder := path }
    setStatus 0
  else fail s!"can\x27t cd to {target}"

/-! ## Values -/

def shift (arguments : List String) : Run PUnit := do
  let n ← match arguments with
    | [] => pure 1
    | a :: _ => number a
  let m ← get
  if m.arguments.length < n then fail "can\x27t shift that many"
  else
    set { m with arguments := m.arguments.drop n }
    setStatus 0

/-- Sets an option by its letter. -/
def withLetter? (o : Options) (on : Bool) : Char → Option Options
  | 'e' => some { o with leavesOnFailure := on }
  | 'u' => some { o with needsValues := on }
  | 'f' => some { o with findsNoFiles := on }
  | 'n' => some { o with runsNothing := on }
  | 'x' => some { o with shows := on }
  | 'a' => some { o with exportsAll := on }
  | 'C' => some { o with keepsFiles := on }
  | c => if "bEiImsvVcl".toList.contains c then some o else none

/-- The names of options with their letters. -/
def optionNames : List (String × Char) := [
  ("errexit", 'e'), ("noglob", 'f'), ("ignoreeof", 'I'), ("interactive", 'i'), ("monitor", 'm'),
  ("noexec", 'n'), ("stdin", 's'), ("xtrace", 'x'), ("verbose", 'v'), ("vi", 'V'), ("emacs", 'E'),
  ("noclobber", 'C'), ("allexport", 'a'), ("notify", 'b'), ("nounset", 'u'), ("nolog", 'b'),
  ("debug", 'b')]

/-- Sets options by arguments in front.  Tells the arguments behind them, and whether they are given
in any case. -/
def setOptions : List String → Run (List String × Bool)
  | [] => pure ([], false)
  | a :: rest => do
    match a.toList with
    | ['-', '-'] => pure (rest, true)
    | ['-'] =>
      modify fun m => { m with options := { m.options with shows := false } }
      pure (rest, !rest.isEmpty)
    | sign :: c :: cs =>
      if sign == '-' || sign == '+' then
        let on := sign == '-'
        let rec letters : List Char → List String → Run (List String)
          | [], rest => pure rest
          | 'o' :: cs, name :: rest => do
            match optionNames.lookup name with
            | some letter =>
              modify fun m => { m with options := (withLetter? m.options on letter).getD m.options }
              letters cs rest
            | none => fail s!"Illegal option {sign}o {name}"
          | 'o' :: cs, [] => letters cs []
          | c :: cs, rest => do
            match withLetter? (← get).options on c with
            | some o =>
              modify fun m => { m with options := o }
              letters cs rest
            | none => fail s!"Illegal option {sign}{c}"
        let rest' ← letters (c :: cs) rest
        if rest'.length ≤ rest.length then setOptions rest' else pure (rest', false)
      else pure (a :: rest, true)
    | _ => pure (a :: rest, true)
termination_by as => as.length

def listValues : Run PUnit := do
  let m ← get
  let sorted := m.values.mergeSort fun a b => a.1 ≤ b.1
  for (name, v) in sorted do
    match v.text with
    | some s => sayLine s!"{name}={quoted s}"
    | none => pure ()

def setCommand (arguments : List String) : Run PUnit := do
  if arguments.isEmpty then listValues
  else
    let (rest, given) ← setOptions arguments
    if given || !rest.isEmpty then modify fun m => { m with arguments := rest }
  setStatus 0

def unset (arguments : List String) : Run PUnit := do
  let (os, names) ← options "vf" "" arguments
  for name in names do
    if os.any fun (c, _) => c == 'f' then
      modify fun m => { m with functions := m.functions.filter fun (k, _) => k != name }
    else
      checkName name
      match (← get).values.get? name with
      | some v => if v.constant then fail s!"{name}: is read only"
      | none => pure ()
      modify fun m => { m with values := m.values.filter fun (k, _) => k != name }
  setStatus 0

/-- Marks names, which may be given values first. -/
def mark (mark : Variable → Variable) (arguments : List String) : Run PUnit := do
  let (_, names) ← options "p" "" arguments
  for a in names do
    let (name, value) := splitAssignment a
    checkName name
    match value with
    | some s => assign name s
    | none => pure ()
    modify fun m =>
      let v := (m.values.get? name).getD ⟨none, false, false⟩
      { m with values := m.values.put name (mark v) }
  setStatus 0

def exportNames : List String → Run PUnit := mark fun v => { v with exported := true }

def protect : List String → Run PUnit := mark fun v => { v with constant := true }

/-- Puts the values of names aside until the function ends. -/
def localNames (arguments : List String) : Run PUnit := do
  if (← get).depth == 0 then fail "not in a function"
  else
    for a in arguments do
      let (name, value) := splitAssignment a
      if name == "-" then pure ()
      else
        checkName name
        modify fun m => { m with putAside := (name, m.values.get? name) :: m.putAside }
        match value with
        | some s => assign name s
        | none => pure ()
    setStatus 0

/-! ## Reading -/

/-- The characters of the next line, with those that a backslash has taken the meaning from.  Tells
how many bytes it takes, and whether it ends. -/
def inputLine (raw : Bool) : List Char → List Mark × Nat × Bool
  | [] => ([], 0, false)
  | '\n' :: _ => ([], 1, true)
  | '\\' :: c :: rest =>
    if raw then
      let (ms, n, ended) := inputLine raw (c :: rest)
      (⟨'\\', false⟩ :: ms, n + 1, ended)
    else
      let (ms, n, ended) := inputLine raw rest
      if c == '\n' then (ms, n + 2, ended) else (⟨c, true⟩ :: ms, n + 2, ended)
  | c :: rest =>
    let (ms, n, ended) := inputLine raw rest
    if c == '\x00' then (ms, n + 1, ended) else (⟨c, false⟩ :: ms, n + 1, ended)

/-- The number of bytes up to the end of the first line, where a line end behind a backslash is none
unless backslashes have no meaning.  The fuel is the number of bytes that are left. -/
def lineSize (raw : Bool) (data : ByteArray) : Nat → (place : Nat) → (escaped : Bool) → Nat
  | 0, place, _ => place
  | fuel + 1, place, escaped =>
    let c := data[place]?.getD 0
    if c == 10 && !escaped then place + 1
    else lineSize raw data fuel (place + 1) (c == 92 && !raw && !escaped)

/-- The text of marks without blanks that separate at its end. -/
def trimmed (separators : List Char) (ms : List Mark) : String :=
  let blank (m : Mark) : Bool :=
    !m.quoted && separators.contains m.char && Cutting.isBlank m.char
  Field.text (ms.reverse.dropWhile blank).reverse

/-- The parts of a line for names, of which the last one takes the rest. -/
def lineParts (separators : List Char) : List String → List Mark → List (String × String)
  | [], _ => []
  | name :: names, ms =>
    let cuts (m : Mark) : Bool := !m.quoted && separators.contains m.char
    let blank (m : Mark) : Bool := cuts m && Cutting.isBlank m.char
    let ms := ms.dropWhile blank
    let first := ms.takeWhile fun m => !cuts m
    let behind := (ms.drop first.length).dropWhile blank
    if names.isEmpty then
      let sole := match behind with
        | [m] => if cuts m then some first else none
        | [] => some first
        | _ => none
      [(name, trimmed separators (sole.getD ms))]
    else
      let behind := match ms.drop first.length, behind with
        | a :: _, b :: more => if blank a && cuts b then more else if blank a then behind
            else behind.drop 1
        | _, more => more
      (name, Field.text first) :: lineParts separators names behind

def read (arguments : List String) : Run PUnit := do
  let (os, names) ← options "r" "p" arguments
  if names.isEmpty then fail "arg count"
  else
    names.forM checkName
    let data ← peek 0
    let raw := os.any fun (c, _) => c == 'r'
    let line := data.extract 0 (lineSize raw data data.size 0 false)
    let (ms, n, ended) := inputLine raw (ofData line).toList
    consume 0 n
    if !ended && (← isEndless 0) then goOn
    let m ← get
    match (lineParts m.separators names ms).find? fun (name, _) =>
        (m.values.get? name).any Variable.constant with
    | some (name, _) => refuse s!"{name}: is read only"
    | none =>
      for (name, s) in lineParts m.separators names ms do assign name s
      setStatus (if ended then 0 else 1)

/-- Reads the next option of the script, or of given arguments. -/
def getOption (arguments : List String) : Run PUnit := do
  match arguments with
  | form :: name :: given =>
    let m ← get
    let words := if given.isEmpty then m.arguments else given
    let index := ((m.value? "OPTIND").bind Calculation.ofValue?).getD 1 |>.toNat
    let silent := form.startsWith ":"
    let place := if m.optionPlace == 0 then 1 else m.optionPlace
    let next (index place : Nat) : Run PUnit := do
      assign "OPTIND" (toString index)
      modify fun m => { m with optionPlace := place }
    match (words[index - 1]?).map String.toList with
    | some ('-' :: c :: cs) =>
      if c == '-' && cs.isEmpty then
        next (index + 1) 0
        assign name "?"
        setStatus 1
      else
        let letters := c :: cs
        let letter := letters.getD (place - 1) '?'
        let behind := letters.drop place
        let onward := if behind.isEmpty then (index + 1, 0) else (index, place + 1)
        let spec := form.toList.dropWhile (· != letter)
        if letter == ':' || spec.isEmpty then
          next onward.1 onward.2
          assign name "?"
          if silent then assign "OPTARG" letter.toString
          else
            modify fun m => { m with values := m.values.filter fun (k, _) => k != "OPTARG" }
            let _ ← write 2 (toData s!"Illegal option -{letter}\n")
          setStatus 0
        else if (spec.drop 1).head? == some ':' then
          match behind, words[index]? with
          | [], none =>
            next (index + 1) 0
            if silent then
              assign name ":"
              assign "OPTARG" letter.toString
            else
              assign name "?"
              let _ ← write 2 (toData s!"No arg for -{letter} option\n")
            setStatus 0
          | [], some value =>
            next (index + 2) 0
            assign name letter.toString
            assign "OPTARG" value
            setStatus 0
          | value, _ =>
            next (index + 1) 0
            assign name letter.toString
            assign "OPTARG" (String.ofList value)
            setStatus 0
        else
          next onward.1 onward.2
          assign name letter.toString
          modify fun m => { m with values := m.values.filter fun (k, _) => k != "OPTARG" }
          setStatus 0
    | _ =>
      assign name "?"
      setStatus 1
  | _ => fail "Usage: getopts optstring var [arg...]"

/-! ## Conditions and printing -/

def files : Run Condition.Files := do
  let d ← disk
  let folder := (← get).folder
  let look (path : String) : Option Found := (System.look d folder (toText path)).toOption
  pure {
    has := fun sign path =>
      match sign, look path with
      | _, none => false
      | "-f", some (.file _ _) => true
      | "-f", some (.program _) => true
      | "-f", some _ => false
      | "-d", some f => f == .folder
      | "-x", some (.file _ executable) => executable
      | "-x", some (.device _) => false
      | "-s", some (.file content _) => content.toBytes.size != 0
      | "-s", some (.device _) => false
      | "-c", some (.device _) => true
      | sign, some _ => ["-e", "-r", "-w", "-x", "-s", "-O", "-G"].contains sign
    areSame := fun path other =>
      match System.locate d folder (toText path), System.locate d folder (toText other) with
      | .ok l, .ok k => l == k && (look path).isSome
      | _, _ => false }

def holds (words : List String) : Run PUnit := do
  match Condition.holds? (← files) words with
  | .ok b => setStatus (if b then 0 else 1)
  | .error fault => fail fault.message

def test (arguments : List String) : Run PUnit := holds arguments

def bracket (arguments : List String) : Run PUnit :=
  if arguments.getLast? == some "]" then holds arguments.dropLast else fail "missing ]"

def echo (arguments : List String) : Run PUnit := do
  say (String.ofList (Printed.echo arguments))
  setStatus 0

def printf (arguments : List String) : Run PUnit := do
  let (_, rest) ← options "" "" arguments
  match rest with
  | [] => fail "usage: printf format [arg ...]"
  | form :: arguments =>
    let o := Printed.format form arguments
    say (String.ofList o.text)
    for (a, misfit) in o.misfits do
      let reason := match misfit with
        | .noNumber => "expected numeric value"
        | .excess => "not completely converted"
        | .outOfRange => "Numerical result out of range"
      complain s!"{a}: {reason}"
    match o.wrong with
    | some directive => fail s!"{directive}: invalid directive"
    | none => setStatus (if o.misfits.isEmpty then 0 else 1)

/-! ## Signals and jobs -/

/-- Takes a signal in. -/
def receive (n : Nat) : Run PUnit := do
  let m ← get
  match (if Signal.catchable n then m.traps.lookup n else none) with
  | some command =>
    if !command.isEmpty then modify fun m => { m with pending := m.pending ++ [n] }
  | none =>
    match Signal.effect n with
    | .nothing => pure ()
    | .stops => leave .deadline
    | .ends => leave (.signal m.process n)

/-- Sends a signal to a process: to the script itself, to one that it runs in, or to a job. -/
def send (signal : Nat) (target : String) : Run Bool := do
  let n ← number target
  let m ← get
  if n == m.process then
    if m.isSubshell && signal != 0 then
      if Signal.effect signal == .ends then leave (.signal n signal)
    else receive signal
    pure true
  else
    match m.jobs.find? fun j => j.process == n with
    | some job =>
      if m.elapsed < job.finish && signal != 0 && Signal.effect signal == .ends then
        let ended : Job :=
          { job with status := 128 + signal, finish := m.elapsed, written := [] }
        modify fun m =>
          { m with jobs := m.jobs.map fun j => if j.process == n then ended else j }
      pure true
    | none => pure false

def killUsage : String :=
  "Usage: kill [-s sigspec | -signum | -sigspec] [pid | job]... or\nkill -l [exitstatus]"

def kill (arguments : List String) : Run PUnit := do
  let sendAll (signal : Nat) (targets : List String) : Run PUnit := do
    if targets.isEmpty then fail killUsage
    else
      setStatus 0
      for target in targets do
        if target.startsWith "%" then fail s!"No such job: {target}"
        else if !(← send signal target) then refuse "No such process\n"
  let term := 15
  match arguments with
  | [] => fail killUsage
  | "-l" :: rest =>
    match rest with
    | [] => ((List.range (Signal.last + 1)).map Signal.name).forM sayLine
    | a :: _ =>
      let n ← number a
      let n := if 128 < n then n - 128 else n
      if 0 < n && n ≤ Signal.last then sayLine (Signal.name n)
      else fail s!"invalid signal number or exit status: {a}"
    setStatus 0
  | a :: rest =>
    match a.toList with
    | '-' :: body =>
      match Signal.ofWord? (String.ofList body) with
      | some n => sendAll n rest
      | none =>
        let (os, targets) ← options "l" "s" arguments
        match (os.find? fun (c, _) => c == 's').map Prod.snd with
        | some name =>
          match Signal.ofWord? name with
          | some n => sendAll n targets
          | none => fail s!"invalid signal number or name: {name}"
        | none => sendAll term targets
    | _ => sendAll term arguments

/-- The signal of an argument of `trap`. -/
def trapSignal? (s : String) : Option Nat :=
  if s == "EXIT" || s == "exit" then some 0 else Signal.ofWord? s

def trap (arguments : List String) : Run PUnit := do
  let (_, rest) ← options "" "" arguments
  setStatus 0
  let setAll (command : Option String) (names : List String) : Run PUnit := do
    for name in names do
      match trapSignal? name with
      | none =>
        let _ ← write 2 (toData s!"trap: {name}: bad trap\n")
        setStatus 1
      | some n =>
        modify fun m =>
          let others := m.traps.filter fun (k, _) => k != n
          { m with
            traps := match command with
              | some s => (n, s) :: others
              | none => others }
  match rest with
  | [] =>
    let m ← get
    for (n, s) in m.traps.mergeSort fun a b => a.1 ≤ b.1 do
      let event := if n == 0 then "EXIT" else Signal.name n
      sayLine s!"trap -- {quoted s} {event}"
  | [name] => setAll none [name]
  | "-" :: names => setAll none names
  | command :: names =>
    if (trapSignal? command).isSome && command.toList.all Char.isDigit then setAll none rest
    else setAll (some command) names

/-- Waits for a job. -/
def waitFor (job : Job) : Run PUnit := do
  modify fun m => { m with elapsed := max m.elapsed job.finish }
  pass 0
  deliver fun j => j.finish ≤ job.finish

def wait (arguments : List String) : Run PUnit := do
  let (_, rest) ← options "" "" arguments
  setStatus 0
  if rest.isEmpty then
    ((← get).jobs.mergeSort fun a b => a.finish ≤ b.finish).forM waitFor
  else
    for a in rest do
      if a.startsWith "%" then fail s!"No such job: {a}"
      else
        let n ← number a
        match (← get).jobs.find? fun j => j.process == n with
        | some job =>
          waitFor job
          setStatus job.status
        | none => setStatus 127

/-! ## Leaving -/

/-- The status of an argument, or the last one. -/
def statusOf (arguments : List String) : Run Nat :=
  match arguments with
  | [] => do pure (← get).status
  | a :: _ => number a

def exit (arguments : List String) : Run PUnit := do
  let n ← statusOf arguments
  setStatus (n % 256)
  leave .script

def «return» (arguments : List String) : Run PUnit := do
  let n ← statusOf arguments
  setStatus n
  leave .function

/-- Leaves so many loops, or goes on with the outermost of them. -/
def leaveLoops (again : Bool) (arguments : List String) : Run PUnit := do
  let n ← match arguments with
    | [] => pure 1
    | a :: _ => number a
  if n == 0 then fail ("Illegal number: " ++ arguments.headD "")
  else
    setStatus 0
    let loops := (← get).loops
    if loops != 0 then leave (.loop again (min n loops))

/-! ## Other commands -/

def umask (arguments : List String) : Run PUnit := do
  let (os, rest) ← options "S" "" arguments
  match rest with
  | [] => sayLine (if os.isEmpty then "0022" else "u=rwx,g=rx,o=rx")
  | a :: _ =>
    if a.toList.head?.any Char.isDigit && !a.toList.all fun c => '0' ≤ c && c ≤ '7' then
      fail s!"Illegal number: {a}"
  setStatus 0

def succeed (_ : List String) : Run PUnit := setStatus 0

def dropShortNames (arguments : List String) : Run PUnit := do
  setStatus 0
  for a in arguments do
    if !a.startsWith "-" then
      let _ ← write 2 (toData s!"unalias: {a} not found\n")
      setStatus 1

def showShortNames (arguments : List String) : Run PUnit := do
  setStatus 0
  for a in arguments do
    if !a.toList.contains '=' then
      let _ ← write 2 (toData s!"alias: {a} not found\n")
      setStatus 1

def noJob (_ : List String) : Run PUnit := fail "No current job"

/-- The commands that need nothing but the machine, by name. -/
def plain? : String → Option (List String → Run PUnit)
  | ":" => some succeed
  | "true" => some succeed
  | "false" => some fun _ => setStatus 1
  | "[" => some bracket
  | "test" => some test
  | "echo" => some echo
  | "printf" => some printf
  | "cd" => some changeFolder
  | "chdir" => some changeFolder
  | "pwd" => some currentFolder
  | "shift" => some shift
  | "set" => some setCommand
  | "unset" => some unset
  | "export" => some exportNames
  | "readonly" => some protect
  | "local" => some localNames
  | "read" => some read
  | "getopts" => some getOption
  | "kill" => some kill
  | "trap" => some trap
  | "wait" => some wait
  | "exit" => some exit
  | "return" => some «return»
  | "break" => some (leaveLoops false)
  | "continue" => some (leaveLoops true)
  | "umask" => some umask
  | "ulimit" => some succeed
  | "times" => some succeed
  | "hash" => some succeed
  | "jobs" => some succeed
  | "alias" => some showShortNames
  | "unalias" => some dropShortNames
  | "bg" => some noJob
  | "fg" => some noJob
  | _ => none

/-- The commands that run others. -/
def running : List String := [".", "command", "eval", "exec", "type"]

def isBuiltin (name : String) : Bool := (plain? name).isSome || running.contains name

/-- Whether a failure of a command ends the script. -/
def isSpecial (name : String) : Bool := Reading.reservedNames.contains name

end Cosim.Script.Builtin
