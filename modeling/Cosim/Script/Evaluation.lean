import Cosim.Script.Builtin
import Cosim.Script.Starter
import Cosim.Script.Starting

/-!
# Running commands

`Evaluation.run` runs a command on a machine, `Evaluation.runText` the commands of a text.  What
runs beside the script, such as the stages of a pipeline, works on a machine of its own, of which
only what it has written stays.  The fuel bounds how deep commands are nested.
-/

namespace Cosim.Script.Evaluation

open Run

/-! ## Time -/

/-- The time that a command of the script takes, in nanoseconds.  It is longer for a late deadline,
so that there are never more than a million commands. -/
def commandCost (deadline : Nat) : Nat := max 1000 (deadline / Nat.pow 10 6)

/-- The time until a machine works beside another one. -/
def asideCost : Nat := 250000

/-- The time that starting a program takes. -/
def programCost : Nat := 1000000

/-- How often a loop can run. -/
def loopLimit : Nat := Nat.pow 2 60

/-- How deep functions can call each other. -/
def depthLimit : Nat := 1000

/-! ## Redirections -/

/-- How a script tells that a file cannot be opened. -/
def openingTrouble (name : String) (creates : Bool) (t : Trouble) : String :=
  let reason :=
    if t != .missing && t != .notFolder then t.message
    else if creates then "Directory nonexistent"
    else "No such file"
  let verb := if creates then "create" else "open"
  s!"cannot {verb} {name}: {reason}"

/-- The channel to a device. -/
def deviceChannel (creates : Bool) (d : Device) : Run (Except Trouble Channel) := do
  match d with
  | .null => pure (.ok .null)
  | .full =>
    if creates then pure (.ok .full)
    else do pure (.ok (.stream (← openStream (Device.front d) d.isEndless)))
  | .zero =>
    if creates then pure (.ok .null)
    else do pure (.ok (.stream (← openStream (Device.front d) d.isEndless)))
  | .terminal => pure (.error .noDevice)
  | .channel n =>
    match (← get).channels.lookup n with
    | some c => pure (.ok c)
    | none => pure (.error .noDevice)

/-- The channel to a file that is written; there may be none yet. -/
def writtenFile (l : Location) (empties : Bool) : Run (Except Trouble Channel) := do
  let d ← disk
  match System.item? d l, System.item? d l.dropLast with
  | some (.file _ executable), _ =>
    if empties then setDisk (d.put l (.file (.bytes .empty) executable))
    pure (.ok (.file l))
  | some .folder, _ => pure (.error .isFolder)
  | some (.device device), _ => deviceChannel true device
  | some (.program _), _ => pure (.error .forbidden)
  | none, some .folder =>
    setDisk ((d.putFolders l.dropLast).put l (.file (.bytes .empty) false))
    pure (.ok (.file l))
  | none, _ => pure (.error .missing)

/-- Opens a file. -/
def openFile (opening : Opening) (name : String) : Run (Except Trouble Channel) := do
  let d ← disk
  let folder := (← get).folder
  match opening with
  | .reading =>
    match System.look d folder (toText name) with
    | .ok (.file content _) => do pure (.ok (.stream (← openStream content.toBytes)))
    | .ok (.device device) => deviceChannel false device
    | .ok _ => pure (.ok .null)
    | .error t => pure (.error t)
  | _ =>
    match System.locate d folder (toText name) with
    | .ok l => writtenFile l (opening == .writing)
    | .error t => pure (.error t)

/-- A text without the characters that no text of a script has. -/
def withoutNull (s : String) : String := String.ofList (s.toList.filter (· != '\x00'))

/-! ## Loops -/

/-- How a loop goes on after its body, or how it is left. -/
inductive Turn where
  | goOn
  | anew
  | stop
  | leave (l : Leave)

def Turn.of : Except Leave PUnit → Turn
  | .ok _ => .goOn
  | .error (.loop again levels) =>
    if 1 < levels then .leave (.loop again (levels - 1)) else if again then .anew else .stop
  | .error l => .leave l

/-- Works on a machine and tells how it was left. -/
abbrev Settled := StateT Machine Action (Except Leave PUnit)

def ended (status : Nat) : Settled := do
  modify fun m => { m with status := status }
  pure (.ok ())

/-- Runs a body as long as a condition holds, or until it does.  The status is that of the last
body.  The fuel is the number of turns. -/
def repeatWhile (untilTrue : Bool) (condition body : Run PUnit) : Nat → Nat → Settled
  | 0, _ => pure (.error .deadline)
  | n + 1, status => do
    match Turn.of (← condition.run) with
    | .leave l => pure (.error l)
    | .stop => ended status
    | .anew => repeatWhile untilTrue condition body n status
    | .goOn =>
      if ((← get).status == 0) == untilTrue then ended status
      else
        match Turn.of (← body.run) with
        | .leave l => pure (.error l)
        | .stop => ended (← get).status
        | _ => do
          let status := (← get).status
          repeatWhile untilTrue condition body n status

/-- Runs a body for each of some words. -/
def repeatEach (body : String → Run PUnit) : List String → Settled
  | [] => pure (.ok ())
  | w :: ws => do
    match Turn.of (← (body w).run) with
    | .leave l => pure (.error l)
    | .stop => pure (.ok ())
    | _ => repeatEach body ws

/-- Runs a loop, inside of which one more loop can be left. -/
def inLoop (loop : Settled) : Run PUnit := do
  modify fun m => { m with loops := m.loops + 1 }
  let r ← ExceptT.lift loop
  modify fun m => { m with loops := m.loops - 1 }
  match r with
  | .ok _ => pure ()
  | .error l => leave l

/-! ## Values for a while -/

/-- Puts back values. -/
def restore (saved : List (String × Option Variable)) : Run PUnit :=
  modify fun m =>
    { m with values := saved.foldl (fun vs (name, v?) =>
        match v? with
        | some v => vs.put name v
        | none => vs.filter fun (k, _) => k != name) m.values }

/-- The values of names as they are. -/
def saved (names : List String) : Run (List (String × Option Variable)) := do
  let m ← get
  pure (names.map fun name => (name, m.values.get? name))

def exportValue (name : String) : Run PUnit :=
  modify fun m =>
    match m.values.get? name with
    | some v => { m with values := m.values.put name { v with exported := true } }
    | none => m

/-! ## Calling programs that run scripts -/

/-- How a program that runs scripts is called. -/
structure Invocation where
  options : Options
  takesText : Bool
  readsInput : Bool
  rest : List String

/-- Takes the arguments of a program that runs scripts apart. -/
def invocation? : Invocation → List String → Except String Invocation
  | i, [] => .ok i
  | i, a :: rest =>
    match a.toList with
    | ['-'] => .ok { i with rest := rest }
    | ['-', '-'] => .ok { i with rest := rest }
    | sign :: c :: cs =>
      if sign == '-' || sign == '+' then
        let on := sign == '-'
        let letters := c :: cs
        let options? := letters.foldl
          (fun (o? : Except String Options) c => do
            let o ← o?
            if c == 'o' then pure o
            else
              match Builtin.withLetter? o on c with
              | some o => pure o
              | none => throw s!"Illegal option {sign}{c}") (.ok i.options)
        match options? with
        | .error reason => .error reason
        | .ok o =>
          let i := { i with
            options := o
            takesText := i.takesText || (on && letters.contains 'c')
            readsInput := i.readsInput || (on && letters.contains 's') }
          if letters.contains 'o' then
            match rest with
            | name :: rest =>
              match (Builtin.optionNames.lookup name).bind (Builtin.withLetter? o on) with
              | some o => invocation? { i with options := o } rest
              | none => .error s!"Illegal option {sign}o {name}"
            | [] => .ok i
          else invocation? i rest
      else .ok { i with rest := a :: rest }
    | _ => .ok { i with rest := a :: rest }

/-! ## Environments -/

/-- Sets the values for a program by assignments, up to the first argument that is none.  Tells what
is left. -/
def environment : List String → Run (List String)
  | [] => pure []
  | a :: rest => do
    match Builtin.splitAssignment a with
    | (name, some s) =>
      modify fun m => { m with values := m.values.put name ⟨some s, true, false⟩ }
      environment rest
    | _ => pure (a :: rest)

/-- Takes values away from a program. -/
def withoutValues (gone : String → Variable → Bool) : Run PUnit :=
  modify fun m => { m with values := m.values.filter fun (name, v) => !gone name v }

/-- The folders in which a starter looks for programs where it is not told of others. -/
def defaultPlaces : List String := ["/bin", "/usr/bin"]

/-! ## Looking up programs -/

/-- What is run for the name of a program. -/
def startOf (name : String) (arguments : List String) : Run (Except Trouble Start) := do
  let m ← get
  let d ← disk
  let path? : Except Trouble String :=
    if name.toList.contains '/' then .ok name
    else
      match m.value? "PATH" with
      | none => .error .missing
      | some s => Start.find d m.folder name ((s.toList.splitOn ':').map String.ofList)
  match path? with
  | .error t => pure (.error t)
  | .ok path =>
    match Start.ofPath d m.folder Start.chainLimit path arguments with
    | .ok start =>
      pure (.ok { start with name := if start.name == path then name else start.name })
    | .error .wrongForm =>
      match System.look d m.folder (toText path) with
      | .ok (.file content _) =>
        if Start.isBinary content.toBytes then pure (.error .wrongForm)
        else pure (.ok ⟨"sh", "sh", path :: arguments⟩)
      | _ => pure (.error .wrongForm)
    | .error t => pure (.error t)

/-- Complains about a program that cannot be run. -/
def refuseProgram (name : String) (t : Trouble) : Run PUnit := do
  let isMissing := t == .missing || t == .notFolder
  let reason := if isMissing then "not found" else t.message
  complain s!"{name}: {reason}"
  setStatus (if !name.toList.contains '/' || isMissing || t == .tooLong then 127 else 126)

/-- Prints the paths of programs. -/
def findPrograms (names : List String) : Run PUnit := do
  let m ← get
  let d ← disk
  let places := (((m.value? "PATH").getD "").toList.splitOn ':').map String.ofList
  setStatus 0
  for name in names do
    let path? := if name.toList.contains '/' then
        match System.look d m.folder (toText name) with
        | .ok found => if Start.canRun found then some name else none
        | .error _ => none
      else (Start.find d m.folder name places).toOption
    match path? with
    | some path => Builtin.sayLine path
    | none => setStatus 1

mutual

/-- Runs a command.  The flag says whether its failure is looked at, so that it does not end the
script. -/
def run : Nat → Bool → Command → Run PUnit
  | 0, _, _ => leave .deadline
  | fuel + 1, looked, c => do
    let check : Run PUnit := do
      let m ← get
      if m.options.leavesOnFailure && !looked && m.status != 0 then leave .script
    if (← get).options.runsNothing then pure ()
    else match c with
    | .nothing => pure ()
    | .simple line assignments words rs =>
      simple fuel looked line assignments words rs
      check
    | .redirected line body rs =>
      standAt line
      let channels := (← get).channels
      if ← redirectAll fuel rs then run fuel looked body
      modify fun m => { m with channels := channels }
    | .pipeline stages =>
      pipeline fuel looked stages
      check
    | .negation body =>
      run fuel true body
      setStatus (if (← get).status == 0 then 1 else 0)
    | .both a b =>
      run fuel true a
      if (← get).status == 0 then run fuel looked b
    | .either a b =>
      run fuel true a
      if (← get).status != 0 then run fuel looked b
    | .sequence a b =>
      run fuel looked a
      run fuel looked b
    | .background body => background fuel body
    | .subshell body =>
      let n ← aside fuel (← get).beside (run fuel looked body)
      setStatus n
      check
    | .choice condition body otherwise =>
      run fuel true condition
      if (← get).status == 0 then run fuel looked body
      else
        setStatus 0
        run fuel looked otherwise
    | .loop untilTrue condition body =>
      inLoop (repeatWhile untilTrue (run fuel true condition) (run fuel looked body) loopLimit 0)
    | .each line name words body =>
      standAt line
      let ws ← match words with
        | some ws => do pure (← ws.mapM (Expansion.fields (capture fuel) fuel)).flatten
        | none => do pure (← get).arguments
      setStatus 0
      inLoop (repeatEach (fun w => do
        assign name w
        pass (commandCost (← get).deadline)
        run fuel looked body) ws)
    | .selection line word branches =>
      standAt line
      let s ← Expansion.text (capture fuel) fuel word
      select fuel looked s.toList branches
    | .definition line name body =>
      modify fun m => { m with functions := m.functions.put name (line, body) }
      setStatus 0

/-- Notes the line of a command; lines of a function count from its start. -/
def standAt (line : Nat) : Run PUnit :=
  modify fun m => { m with line := line - (m.functionLine - 1) }

/-- Runs the first branch that a text fits. -/
def select : Nat → Bool → List Char → List (List Word × Command) → Run PUnit
  | 0, _, _, _ => leave .deadline
  | _, _, _, [] => setStatus 0
  | fuel + 1, looked, s, (patterns, body) :: branches => do
    if ← fitsOne fuel s patterns then
      match body with
      | .nothing => setStatus 0
      | body => run fuel looked body
    else select fuel looked s branches

def fitsOne : Nat → List Char → List Word → Run Bool
  | 0, _, _ => leave .deadline
  | _, _, [] => pure false
  | fuel + 1, s, word :: words => do
    let pattern ← Expansion.pattern (capture fuel) fuel word
    if pattern.fits s then pure true else fitsOne fuel s words

/-- Does some work, and then what has been asked for at the end. -/
def finish : Nat → Run PUnit → Run PUnit
  | 0, _ => leave .deadline
  | fuel + 1, work => do
    let r ← attempt work
    deliver fun _ => true
    match r with
    | .error .deadline => leave .deadline
    | .error (.signal process n) => leave (.signal process n)
    | _ =>
      let m ← get
      match m.traps.lookup 0 with
      | none => pure ()
      | some text =>
        set { m with traps := m.traps.filter fun (n, _) => n != 0 }
        match ← attempt (runText fuel false (.ofText text 1)) with
        | .ok _ => setStatus m.status
        | .error (.loop _ _) => setStatus m.status
        | .error .function => setStatus m.status
        | .error .deadline => leave .deadline
        | .error (.signal process n) => leave (.signal process n)
        | .error _ => pure ()

/-- Does some work on another machine, and tells its status. -/
def aside : Nat → Machine → Run PUnit → Run Nat
  | 0, _, _ => leave .deadline
  | fuel + 1, other, work => do
    let m ← get
    set { other with elapsed := m.elapsed }
    let r ← attempt (do
      pass asideCost
      finish fuel work)
    let o ← get
    set (m.after o)
    match r with
    | .error .deadline => leave .deadline
    | .error (.signal process n) =>
      if process == m.process then
        Builtin.receive n
        pure (128 + n)
      else if process == o.process then
        let report := Signal.report n
        if !report.isEmpty then discard (write 2 (toData (report ++ "\n")))
        pure (128 + n)
      else leave (.signal process n)
    | _ => pure o.status

/-- The output of a command. -/
def capture : Nat → Command → Run String
  | 0, _ => leave .deadline
  | fuel + 1, c => do
    let n ← openStream .empty
    let m ← get
    let others := m.channels.filter fun (k, _) => k != 1
    let other := { m.beside with channels := (1, .stream n) :: others }
    let status ← aside fuel other (run fuel false c)
    modify fun m => { m with captured := some status }
    match (← get).streams[n]? with
    | some s =>
      if s.isEndless then goOn
      pure (withoutNull (ofData s.data))
    | none => pure ""

/-- Runs the stages of a pipeline, each of which reads what the one before it has written. -/
def pipeline : Nat → Bool → List Command → Run PUnit
  | 0, _, _ => leave .deadline
  | _, _, [] => pure ()
  | fuel + 1, looked, [c] => do
    let n ← aside fuel (← get).beside (run fuel looked c)
    setStatus n
  | fuel + 1, looked, c :: stages => do
    let n ← openStream .empty
    let m ← get
    let others := m.channels.filter fun (k, _) => k != 1
    let start := m.elapsed
    let other := { m.beside with channels := (1, .stream n) :: others }
    let r ← attempt (discard (aside fuel other (run fuel looked c)))
    match r with
    | .ok _ => pure ()
    | .error .deadline =>
      modify fun m =>
        { m with streams := m.streams.modify n fun s => { s with isEndless := 0 < s.data.size } }
    | .error l => leave l
    let now ← get
    let finish := if now.streams[n]?.any Stream.isEndless then start else now.elapsed
    modify fun m =>
      { m with
        elapsed := start
        channels := (0, .stream n) :: m.channels.filter fun (k, _) => k != 0 }
    pipeline fuel looked stages
    modify fun now =>
      { now with
        elapsed := max now.elapsed finish
        channels := m.channels }
    pass 0

/-- Runs a command while the script goes on. -/
def background : Nat → Command → Run PUnit
  | 0, _ => leave .deadline
  | fuel + 1, c => do
    let m ← get
    let targets := (m.channels.filterMap fun (k, c) =>
      match c with
      | .stream n => if k == 0 then none else some n
      | _ => none).eraseDups
    let written ← targets.mapM fun n => do pure (n, ← openStream .empty)
    let channels := (m.channels.filter fun (k, _) => k != 0).map fun (k, c) =>
      match c with
      | .stream n => (k, Channel.stream ((written.lookup n).getD n))
      | c => (k, c)
    let stop := m.deadline + m.patience
    let other := { (← get).beside with channels := (0, .null) :: channels, deadline := stop }
    let r ← attempt (do
      pass programCost
      let n ← aside fuel other (run fuel false c)
      setStatus n)
    match r with
    | .error (.signal process n) => leave (.signal process n)
    | r =>
      let o ← get
      let (status, finish) := match r with
        | .error .deadline => (0, stop)
        | _ => (o.status, o.elapsed)
      let job : Job := ⟨m.nextProcess, status, finish, written⟩
      set { m.after o with
        elapsed := m.elapsed
        nextProcess := max o.nextProcess (m.nextProcess + 1)
        jobs := m.jobs ++ [job]
        status := 0 }

/-- Runs the commands of a text, line by line. -/
def runText : Nat → Bool → Source → Run PUnit
  | 0, _, _ => leave .deadline
  | fuel + 1, looked, source => do
    match source.next with
    | .error fault =>
      modify fun m => { m with line := fault.line }
      fail ("Syntax error: " ++ fault.cause.message)
    | .ok none => pure ()
    | .ok (some (c, rest)) =>
      run fuel looked c
      runText fuel looked rest

/-- Runs the commands for signals that have come. -/
def answerSignals : Nat → Run PUnit
  | 0 => leave .deadline
  | fuel + 1 => do
    let m ← get
    match m.pending with
    | [] => pure ()
    | n :: rest =>
      set { m with pending := rest }
      match m.traps.lookup n with
      | some text =>
        runText fuel false (.ofText text 1)
        setStatus m.status
      | none => pure ()
      answerSignals fuel

/-- Connects the channels of a command.  Tells whether that was possible. -/
def redirectAll : Nat → List Redirection → Run Bool
  | 0, _ => leave .deadline
  | _, [] => pure true
  | fuel + 1, r :: rs => do
    let refuse (text : String) : Run Bool := do
      complain text
      setStatus failureStatus
      pure false
    pass (2 * commandCost (← get).deadline)
    match r with
    | .file channel opening name =>
      let name ← Expansion.text (capture fuel) fuel name
      let keeps := (← get).options.keepsFiles && opening == .writing
      let exists? := match System.look (← disk) (← get).folder (toText name) with
        | .ok (.file _ _) => true
        | _ => false
      if keeps && exists? then refuse s!"cannot create {name}: File exists"
      else
        match ← openFile opening name with
        | .ok target =>
          connect channel (some target)
          redirectAll fuel rs
        | .error t => refuse (openingTrouble name (opening != .reading) t)
    | .channel channel source =>
      let s ← Expansion.text (capture fuel) fuel source
      if s == "-" then
        connect channel none
        redirectAll fuel rs
      else if s.toList.all Char.isDigit && s.length == 1 then
        let n := (Calculation.digits 10 s.toList).1
        match (← get).channels.lookup n with
        | some target =>
          connect channel (some target)
          redirectAll fuel rs
        | none => refuse s!"{n}: Bad file descriptor"
      else fail "Syntax error: Bad fd number"
    | .document channel body =>
      let s ← Expansion.text (capture fuel) fuel body
      let n ← openStream (toData s)
      connect channel (some (.stream n))
      redirectAll fuel rs

/-- The fields of the words of a command.  Behind a command that sets values, assignments stay
whole. -/
def commandFields : Nat → Bool → List Word → Run (List String)
  | 0, _, _ => leave .deadline
  | _, _, [] => pure []
  | fuel + 1, sets, word :: words => do
    let first ← match (if sets then assignment? word else none) with
      | some (name, value) => do
        let s ← Expansion.text (capture fuel) fuel value
        pure [name ++ "=" ++ s]
      | none => Expansion.fields (capture fuel) fuel word
    let rest ← commandFields fuel sets words
    pure (first ++ rest)

/-- The values of assignments, one after another. -/
def assignAll : Nat → Bool → List (String × Word) → Run (List String)
  | 0, _, _ => leave .deadline
  | _, _, [] => pure []
  | fuel + 1, exports, (name, word) :: rest => do
    let s ← Expansion.text (capture fuel) fuel word
    assign name s
    if exports then exportValue name
    pure (s!"{name}={s}" :: (← assignAll fuel exports rest))

/-- Shows a command before it runs, if that is asked for. -/
def show? (words : List String) : Run PUnit := do
  let m ← get
  if m.options.shows then
    discard (write 2 (toData ((m.value? "PS4").getD "" ++ " ".intercalate words ++ "\n")))

/-- Runs a simple command. -/
def simple : Nat → Bool → Nat → List (String × Word) → List Word → List Redirection → Run PUnit
  | 0, _, _, _, _, _ => leave .deadline
  | fuel + 1, looked, line, assignments, words, rs => do
    standAt line
    modify fun m => { m with captured := none }
    pass (commandCost (← get).deadline)
    let now := (← get).elapsed
    if (← get).jobs.any fun j => j.finish ≤ now then deliver fun j => j.finish ≤ now
    let sets := match words.head?.bind Word.plain? with
      | some cs => ["export", "readonly", "local"].contains (String.ofList cs)
      | none => false
    let fields ← commandFields fuel sets words
    let channels := (← get).channels
    let putBack : Run PUnit := modify fun m => { m with channels := channels }
    match fields with
    | [] =>
      if ← redirectAll fuel rs then
        let shown ← assignAll fuel false assignments
        if !shown.isEmpty then show? shown
        setStatus ((← get).captured.getD 0)
      putBack
    | name :: arguments =>
      let isFunction := (← get).functions.has name && !Builtin.isSpecial name
      let isSpecial := Builtin.isSpecial name
      if ← redirectAll fuel rs then
        let before ← saved (assignments.map Prod.fst)
        let shown ← assignAll fuel (!isSpecial) assignments
        show? (shown ++ name :: arguments)
        let r ← attempt (invoke fuel looked false name arguments)
        if !isSpecial && !assignments.isEmpty then restore before
        match r, name, arguments with
        | .ok _, "exec", [] => pure ()
        | .ok _, _, _ =>
          putBack
          if !(← get).pending.isEmpty && !isFunction then answerSignals fuel
        | .error l, _, _ =>
          putBack
          leave l
      else
        putBack
        if isSpecial then leave .failure

/-- Runs the command with a name.  The flag says whether it is called as a command, so that no
function counts and no failure ends the script. -/
def invoke : Nat → Bool → Bool → String → List String → Run PUnit
  | 0, _, _, _, _ => leave .deadline
  | fuel + 1, looked, asCommand, name, arguments => do
    let m ← get
    let isSpecial := Builtin.isSpecial name
    match (if asCommand || isSpecial then none else m.functions.get? name) with
    | some (line, body) => callFunction fuel looked line body arguments
    | none =>
      if Builtin.isBuiltin name then
        set { m with command := some name, outputLost := false }
        let r ← attempt (match Builtin.plain? name with
          | some run => run arguments
          | none => running fuel looked name arguments)
        if (← get).outputLost then
          complain s!"{name}: I/O error"
          setStatus 1
        modify fun now => { now with command := m.command, outputLost := false }
        match r with
        | .ok _ => pure ()
        | .error .failure => if isSpecial && !asCommand then leave .failure
        | .error l => leave l
      else callProgram fuel name arguments

/-- Calls a function with arguments. -/
def callFunction : Nat → Bool → Nat → Command → List String → Run PUnit
  | 0, _, _, _, _ => leave .deadline
  | fuel + 1, looked, line, body, arguments => do
    let m ← get
    if depthLimit ≤ m.depth then fail s!"Maximum function recursion depth ({depthLimit}) reached"
    else
      set { m with
        arguments := arguments
        depth := m.depth + 1
        functionLine := line
        loops := 0
        putAside := []
        optionPlace := 0 }
      let r ← attempt (run fuel looked body)
      restore (← get).putAside
      modify fun now =>
        { now with
          arguments := m.arguments
          depth := m.depth
          functionLine := m.functionLine
          loops := m.loops
          putAside := m.putAside
          optionPlace := m.optionPlace }
      match r with
      | .ok _ => pure ()
      | .error .function => pure ()
      | .error l => leave l

/-- The commands that run others. -/
def running : Nat → Bool → String → List String → Run PUnit
  | 0, _, _, _ => leave .deadline
  | fuel + 1, looked, name, arguments => do
    match name with
    | "eval" =>
      let text := " ".intercalate arguments
      if text.toList.all Calculation.isBlank then setStatus 0
      else runText fuel looked (.ofText text 1)
    | "." =>
      match arguments with
      | [] => fail "filename argument required"
      | path :: _ =>
        let d ← disk
        let m ← get
        let places := ((m.value? "PATH").getD "").toList.splitOn ':' |>.map String.ofList
        let candidates := if path.toList.contains '/' then [path]
          else places.map fun p => if p.isEmpty then path else p ++ "/" ++ path
        let found := candidates.findSome? fun p =>
          match System.look d m.folder (toText p) with
          | .ok (.file content _) => some (p, ofData content.toBytes)
          | .ok _ => if p == path then some (p, "") else none
          | .error _ => none
        match found with
        | none =>
          if path.toList.contains '/' then
            let t := match System.look d m.folder (toText path) with
              | .error t => t
              | .ok _ => .missing
            fail (openingTrouble path false t)
          else fail s!"{path}: not found"
        | some (p, text) =>
          set { m with command := some p }
          setStatus 0
          match ← attempt (runText fuel false (.ofText text 1)) with
          | .ok _ => pure ()
          | .error .function => pure ()
          | .error l => leave l
    | "exec" =>
      match arguments with
      | [] => setStatus 0
      | name :: arguments =>
        match ← startOf name arguments with
        | .error t => refuseProgram name t
        | .ok start =>
          modify fun m =>
            { m with isReplaced := true, traps := m.traps.filter fun (_, s) => s.isEmpty }
          perform fuel start.program start.name start.arguments
        leave .script
    | "type" => describeAll fuel false arguments
    | _ =>
      let (os, rest) ← Builtin.options "pvV" "" arguments
      if os.any fun (c, _) => c == 'v' || c == 'V' then
        describeAll fuel (os.any fun (c, _) => c == 'v') (rest.take 1)
      else
        match rest with
        | [] => setStatus 0
        | name :: arguments =>
          modify fun m => { m with command := none }
          invoke fuel looked true name arguments

/-- Tells what names stand for. -/
def describeAll : Nat → Bool → List String → Run PUnit
  | 0, _, _ => leave .deadline
  | _, _, [] => pure ()
  | fuel + 1, short, name :: names => do
    let m ← get
    let d ← disk
    let places := ((m.value? "PATH").getD "").toList.splitOn ':' |>.map String.ofList
    let told : Option (String × String) :=
      if Token.keywords.contains name then some (name, "is a shell keyword")
      else if m.functions.has name then some (name, "is a shell function")
      else if Builtin.isBuiltin name then
        some (name, if Builtin.isSpecial name then "is a special shell builtin"
          else "is a shell builtin")
      else if name.toList.contains '/' then
        match System.look d m.folder (toText name) with
        | .ok found => if Start.canRun found then some (name, s!"is {name}") else none
        | .error _ => none
      else
        match Start.find d m.folder name places with
        | .ok path => some (path, s!"is {path}")
        | .error _ => none
    setStatus 0
    match told with
    | some (path, kind) => Builtin.sayLine (if short then path else s!"{name} {kind}")
    | none =>
      if !short then Builtin.sayLine s!"{name}: not found"
    describeAll fuel short names
    if told.isNone then setStatus 127

/-- Calls the program with a name, which is looked up. -/
def callProgram : Nat → String → List String → Run PUnit
  | 0, _, _ => leave .deadline
  | fuel + 1, name, arguments => do
    match ← startOf name arguments with
    | .ok start => perform fuel start.program start.name start.arguments
    | .error t => refuseProgram name t

/-- Runs a program of the system. -/
def perform : Nat → (program name : String) → List String → Run PUnit
  | 0, _, _, _ => leave .deadline
  | fuel + 1, program, name, arguments => do
    pass programCost
    if System.shells.contains program then
      let child := (← get).child
      let n ← aside fuel { child with name := name } (shell fuel name arguments)
      setStatus n
    else if System.starters.contains program then starter fuel program name arguments
    else if program == "which" then findPrograms arguments
    else
      match Utility.find? program with
      | none => setStatus 0
      | some work =>
        let m ← get
        let data ← peek 0
        let setting : Setting := ⟨name, m.folder, data, ← isEndless 0⟩
        let e ← ExceptT.lift (StateT.lift (Working.run (work arguments) setting))
        if e.stays then goOn
        if e.readsInput then consume 0 data.size
        let isWritten ← write 1 e.output
        discard (write 2 (toData e.complaint))
        if !isWritten && e.output.size != 0 then
          discard (write 2 (toData s!"{name}: write error: No space left on device\n"))
        setStatus (if isWritten || e.output.size == 0 then e.status else 1)
        pass e.took
        if e.writesOn && isWritten then writeOn 1

/-- Runs a script, as the machine of a program that runs scripts. -/
def shell : Nat → String → List String → Run PUnit
  | 0, _, _ => leave .deadline
  | fuel + 1, name, arguments => do
    match invocation? ⟨{}, false, false, []⟩ arguments with
    | .error reason => fail reason
    | .ok i =>
      modify fun m => { m with options := i.options }
      if i.takesText then
        match i.rest with
        | [] => fail "-c requires an argument"
        | text :: rest =>
          modify fun m => { m with name := rest.headD name, arguments := rest.tail }
          runText fuel false (.ofText text 1)
      else
        match (if i.readsInput then [] else i.rest) with
        | [] =>
          let data ← peek 0
          consume 0 data.size
          modify fun m => { m with arguments := i.rest }
          runText fuel false (.ofText (ofData data) 1)
        | file :: rest =>
          let d ← disk
          match System.look d (← get).folder (toText file) with
          | .error t => fail (openingTrouble file false t)
          | .ok found =>
            modify fun m => { m with name := file, arguments := rest }
            let text := match found with
              | .file content _ => withoutNull (ofData content.toBytes)
              | _ => ""
            runText fuel false (.ofText text 1)

/-- Runs the program that a starter is called for. -/
def start : Nat → (program name : String) → List String → Run PUnit
  | 0, _, _, _ => leave .deadline
  | _, _, _, [] => setStatus 0
  | fuel + 1, program, name, called :: arguments => do
    let m ← get
    let d ← disk
    let places := match m.value? "PATH" with
      | some s => (s.toList.splitOn ':').map String.ofList
      | none => defaultPlaces
    let isPath := called.toList.contains '/'
    let path? := if isPath then .ok called else Start.find d m.folder called places
    match path?.bind fun p => Start.ofPath d m.folder Start.chainLimit p arguments with
    | .ok s =>
      let shown := if !isPath && System.programs.contains called then called else s.name
      perform fuel s.program shown s.arguments
    | .error .wrongForm => perform fuel "sh" "sh" (called :: arguments)
    | .error t =>
      discard (write 2 (toData s!"{name}: {Starter.refusal program called t}\n"))
      setStatus (if t == .missing then 127 else 126)

/-- Runs commands one after another, as long as they do not end with the worst status. -/
def startAll : Nat → (name : String) → (status : Nat) → List (List String) → Run PUnit
  | 0, _, _, _ => leave .deadline
  | _, _, status, [] => setStatus status
  | fuel + 1, name, status, command :: more => do
    start fuel "xargs" name command
    match (← get).status with
    | 0 => startAll fuel name status more
    | 126 => pure ()
    | 127 => pure ()
    | 255 =>
      let called := command.headD ""
      discard (write 2 (toData s!"{name}: {called}: exited with status 255; aborting\n"))
      setStatus 124
    | _ => startAll fuel name 123 more

/-- Runs a program that runs another one. -/
def starter : Nat → (program name : String) → List String → Run PUnit
  | 0, _, _, _ => leave .deadline
  | fuel + 1, program, name, arguments => do
    let note (text : String) : Run PUnit := do
      discard (write 2 (toData s!"{name}: {text}\n"))
      setStatus (Starter.troubleStatus program)
    let help := inQuotes (name ++ " --help")
    let advise : Run PUnit := discard (write 2 (toData s!"Try {help} for more information.\n"))
    let misused (text : String) : Run PUnit := do
      note text
      advise
    let arguments := if program == "nice" then Starter.withAdjustment arguments else arguments
    match Given.readFront (Starter.form program) arguments with
    | .error fault => misused fault.message
    | .ok g =>
    let m ← get
    let d ← disk
    match program with
    | "env" =>
      let (isBare, operands) := match g.operands with
        | "-" :: rest => (true, rest)
        | operands => (g.has 'i', operands)
      if isBare then withoutValues fun _ v => v.exported
      for (c, name) in g.options do
        if c == 'u' then withoutValues fun k _ => k == name
      let command ← environment operands
      let command := ((g.value? 'S').map fun s =>
        ((s.toList.splitOnP Calculation.isBlank).filter (!·.isEmpty)).map String.ofList).getD [] ++
          command
      match (g.value? 'C').map fun c => (c, System.look d m.folder (toText c)) with
      | some (c, .error t) => note s!"cannot change directory to {inQuotes c}: {t.message}"
      | some (c, .ok .folder) =>
        modify fun now => { now with folder := Path.normalize (Path.join m.folder (toText c)) }
        start fuel program name command
      | some (c, .ok _) =>
        note s!"cannot change directory to {inQuotes c}: {Trouble.notFolder.message}"
      | none =>
        if command.isEmpty then
          for (key, v) in (← get).values do
            if v.exported then discard (write 1 (toData (key ++ "=" ++ v.text.getD "" ++ "\n")))
          setStatus 0
        else start fuel program name command
      modify fun now => { now with values := m.values, folder := m.folder }
    | "timeout" =>
      let signal? := Signal.ofWord? ((g.value? 's').getD "TERM")
      let wrong := (((g.value? 'k').toList ++ g.operands.take 1).find? fun s =>
        (Utility.duration? s).isNone)
      match signal?, wrong, g.operands with
      | none, _, _ => misused (inQuotes ((g.value? 's').getD "") ++ ": invalid signal")
      | _, some s, _ => misused s!"invalid time interval {inQuotes s}"
      | some signal, _, limit :: command =>
        let span := (Utility.duration? limit).getD 0
        let stop := m.elapsed + span
        if command.isEmpty then
          advise
          setStatus (Starter.troubleStatus program)
        else if span == 0 || m.deadline ≤ stop then start fuel program name command
        else
          set { m with deadline := stop }
          let r ← attempt (start fuel program name command)
          modify fun now => { now with deadline := m.deadline }
          match r with
          | .ok _ => pure ()
          | .error .deadline =>
            let byForce := Signal.name signal == "KILL"
            let status := if byForce || g.has 'P' then 128 + signal else 124
            modify fun now => { now with elapsed := stop, status := status }
            if byForce then
              if m.isReplaced then leave (.signal m.process signal)
              else discard (write 2 (toData (Signal.report signal ++ "\n")))
          | .error l => leave l
      | _, _, [] =>
        advise
        setStatus (Starter.troubleStatus program)
    | "xargs" =>
      match Starter.noNumber? g with
      | some (c, s) => misused ("invalid number \"" ++ s ++ "\" for -" ++ c.toString ++ " option")
      | none =>
        if ← isEndless 0 then goOn
        let data ← peek 0
        consume 0 data.size
        let channels := m.channels
        modify fun now =>
          { now with
            channels := (0, .null) :: channels.filter fun (k, _) => k != 0
            isReplaced := false }
        match Starter.commands g (ofData data) with
        | .error unclosed =>
          discard (write 2 (toData s!"{name}: {unclosed.message}\n"))
          setStatus 1
        | .ok commands =>
          if g.has 't' then
            for command in commands do
              discard (write 2 (toData (" ".intercalate command ++ "\n")))
          startAll fuel name 0 commands
        modify fun now => { now with channels := channels }
    | "nice" =>
      match (g.value? 'n').filter fun s => (Calculation.ofValue? s).isNone, g.operands with
      | some s, _ => note s!"invalid adjustment {inQuotes s}"
      | none, [] =>
        discard (write 1 (toData "0\n"))
        setStatus 0
      | none, command => start fuel program name command
    | _ =>
      if g.operands.isEmpty then
        misused (if program == "setsid" then "no command specified" else "missing operand")
      else start fuel program name g.operands

end

/-- How deep commands can be nested. -/
def fuel : Nat := 1000000

end Cosim.Script.Evaluation
