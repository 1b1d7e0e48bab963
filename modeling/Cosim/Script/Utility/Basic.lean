import Cosim.Archive
import Cosim.Script.Bytes
import Cosim.Script.System

/-!
# Utilities

Programs that scripts call for a single job.  A utility reads its arguments, files and one input; it
writes an output and complaints, may change the disk, and ends with a status.
-/

namespace Cosim.Script

/-- What a utility does besides changing the disk. -/
structure Effect where
  output : ByteArray
  complaint : String
  status : Nat
  /-- how long it takes, in nanoseconds -/
  took : Nat
  readsInput : Bool
  /-- whether it stays without end -/
  stays : Bool
  /-- whether it writes without end -/
  writesOn : Bool

/-- Where a utility runs; its input may have no end. -/
structure Setting where
  program : String
  folder : String
  input : ByteArray
  isEndless : Bool

/-- Works as a utility. -/
abbrev Working := ReaderT Setting (StateT Effect Action)

namespace Working

/-- What a utility does in a setting. -/
def run (work : Working PUnit) (s : Setting) : Action Effect := do
  pure (← (ReaderT.run work s).run ⟨.empty, "", 0, 0, false, false, false⟩).2

def write (data : ByteArray) : Working PUnit :=
  modify fun e => { e with output := e.output ++ data }

def say (s : String) : Working PUnit := write (toData s)

def sayLine (s : String) : Working PUnit := say (s ++ "\n")

def setStatus (n : Nat) : Working PUnit := modify fun e => { e with status := n }

/-- Complains without more. -/
def note (text : String) : Working PUnit := do
  let s ← read
  modify fun e => { e with complaint := e.complaint ++ s!"{s.program}: {text}\n" }

/-- Complains, and ends with a status other than success. -/
def complain (text : String) (status : Nat := 1) : Working PUnit := do
  note text
  setStatus status

/-- Complains about the way it is called. -/
def misused (text : String) (status : Nat := 1) : Working PUnit := do
  complain text status
  let s ← read
  modify fun e =>
    { e with
      complaint := e.complaint ++ s!"Try \x27{s.program} --help\x27 for more information.\n" }

/-- Goes on with its output without end. -/
def writeOn : Working PUnit := modify fun e => { e with writesOn := true }

/-- Does not come to an end. -/
def stay : Working PUnit := modify fun e => { e with stays := true }

/-- The input as far as it is there. -/
def front : Working ByteArray := do
  modify fun e => { e with readsInput := true }
  pure (← read).input

/-- The whole input; there is no end of waiting for one without end. -/
def input : Working ByteArray := do
  if (← read).isEndless then stay
  front

def disk : Working Disk := fun _ => StateT.lift get

def setDisk (d : Disk) : Working PUnit := fun _ => StateT.lift (set d)

/-- Acts on the disk, unless the action fails. -/
def act (action : Action PUnit) : Working Bool := fun _ =>
  StateT.lift (tryCatch (do action; pure true) fun _ => pure false)

end Working

/-- A name as complaints show it. -/
def inQuotes (s : String) : String := "\x27" ++ s ++ "\x27"

/-- Writes on with what is read as it comes, in place of waiting for its end. -/
def Working.passOn : Working PUnit :=
  modify fun e => { e with stays := false, writesOn := e.writesOn || e.stays }

/-- Does not wait for more than has been read. -/
def Working.suffice : Working PUnit := modify fun e => { e with stays := false }

/-! ## Options -/

/-- Options with the values that some take, and the arguments that are none. -/
structure Given where
  options : List (Char × String)
  operands : List String

namespace Given

def has (g : Given) (c : Char) : Bool := g.options.any fun (o, _) => o == c

/-- The last value of an option. -/
def value? (g : Given) (c : Char) : Option String :=
  (g.options.reverse.find? fun (o, _) => o == c).map Prod.snd

/-- Why arguments cannot be taken apart. -/
inductive Fault where
  | unknown (c : Char)
  | unknownName (name : String)
  | noValue (c : Char)

def Fault.message : Fault → String
  | .unknown c => s!"invalid option -- \x27{c}\x27"
  | .unknownName name => s!"unrecognized option \x27{name}\x27"
  | .noValue c => s!"option requires an argument -- \x27{c}\x27"

/-- Which options there are: flags, options with values, and long names for some of them. -/
structure Form where
  flags : String
  valued : String
  names : List (String × Char)

/-- The options in one argument behind its hyphen.  The last one may need a value that is not
there. -/
def cluster (form : Form) : List Char → Except Fault (List (Char × String) × Option Char)
  | [] => .ok ([], none)
  | c :: cs => do
    if form.valued.toList.contains c then
      if cs.isEmpty then .ok ([], some c) else .ok ([(c, String.ofList cs)], none)
    else if form.flags.toList.contains c then
      let (more, open?) ← cluster form cs
      .ok ((c, "") :: more, open?)
    else .error (.unknown c)

/-- A long option, which may have its value behind a sign. -/
def long (form : Form) (argument : String) : Except Fault ((Char × String) × Bool) :=
  let body := argument.toList.drop 2
  let name := String.ofList (body.takeWhile (· != '='))
  let value := String.ofList ((body.dropWhile (· != '=')).drop 1)
  match form.names.lookup name with
  | some c => .ok ((c, value), form.valued.toList.contains c && !body.contains '=')
  | none => .error (.unknownName ("--" ++ name))

/-- Whether an argument holds options. -/
def isOption (a : String) : Bool := a.startsWith "-" && a != "-"

/-- The options in one argument.  The last one may need a value that is not there. -/
def optionsOf (form : Form) (a : String) : Except Fault (List (Char × String) × Option Char) :=
  if a.startsWith "--" then
    (long form a).map fun (option, needs) =>
      if needs then ([], some option.1) else ([option], none)
  else cluster form (a.toList.drop 1)

/-- Takes arguments apart. -/
def read (form : Form) : List String → Except Fault Given
  | [] => .ok ⟨[], []⟩
  | a :: rest =>
    if a == "--" then .ok ⟨[], rest⟩
    else if !isOption a then
      (read form rest).map fun g => { g with operands := a :: g.operands }
    else
      match optionsOf form a with
      | .error fault => .error fault
      | .ok (options, none) =>
        (read form rest).map fun g => { g with options := options ++ g.options }
      | .ok (options, some c) =>
        match rest with
        | [] => .error (.noValue c)
        | b :: rest =>
          (read form rest).map fun g => { g with options := options ++ (c, b) :: g.options }

end Given

namespace Working

/-- Works with arguments that have been taken apart. -/
def withOptions (flags valued : String) (names : List (String × Char)) (arguments : List String)
    (work : Given → Working PUnit) (status : Nat := 1) : Working PUnit :=
  match Given.read ⟨flags, valued, names⟩ arguments with
  | .ok g => work g
  | .error fault => misused fault.message status

/-! ## Files -/

def look (name : String) : Working (Except Trouble Found) := do
  pure (System.look (← disk) (← read).folder (toText name))

/-- The path of a name. -/
def path (name : String) : Working String := do
  pure (Path.join (← read).folder (toText name))

/-- The bytes of a file, and whether it goes on without end; a hyphen stands for the input. -/
def fileFront (name : String) : Working (Except Trouble (ByteArray × Bool)) := do
  if name == "-" then pure (.ok (← front, (← read).isEndless))
  else
    match ← look name with
    | .ok (.file content _) => pure (.ok (content.toBytes, false))
    | .ok .folder => pure (.error .isFolder)
    | .ok (.device (.channel 0)) => pure (.ok (← front, (← read).isEndless))
    | .ok (.device .terminal) => pure (.error .noDevice)
    | .ok (.device d) => pure (.ok (Device.front d, d.isEndless))
    | .ok (.program _) => pure (.ok (.empty, false))
    | .error t => pure (.error t)

/-- The bytes of a file.  The utility stays if there is no end of them. -/
def fileData (name : String) : Working (Except Trouble ByteArray) := do
  match ← fileFront name with
  | .ok (data, isEndless) => do
    if isEndless then stay
    pure (.ok data)
  | .error t => pure (.error t)

/-- Works on the bytes of each file, or of the input if there is no file.  A file that cannot be
read is complained about. -/
def forFiles (names : List String) (wording : String → Trouble → String)
    (work : String → ByteArray → Working PUnit) (status : Nat := 1) : Working PUnit := do
  for name in (if names.isEmpty then ["-"] else names) do
    match ← fileData name with
    | .ok data => work name data
    | .error t => complain (wording name t) status

/-- Writes a file, over an old one. -/
def writeFile (name : String) (data : ByteArray) : Working (Except Trouble PUnit) := do
  let d ← disk
  match System.locate d (← read).folder (toText name) with
  | .error t => pure (.error t)
  | .ok l =>
    match System.item? d l with
    | some .folder => pure (.error .isFolder)
    | some (.device _) => pure (.ok ())
    | some (.program _) => pure (.error .forbidden)
    | _ =>
      if ← act (Action.write ("/" ++ "/".intercalate l) (.bytes data)) then pure (.ok ())
      else pure (.error .missing)

end Working

/-! ## Lines -/

/-- The lines of a text; a line end behind the last one adds none. -/
def linesOf (s : String) : List String :=
  let lines := (s.toList.splitOn '\n').map String.ofList
  if lines.getLast? == some "" then lines.dropLast else lines

/-- The lines of a text with their line ends. -/
def linesWithEnds (s : String) : List String :=
  let lines := (s.toList.splitOn '\n').map String.ofList
  let ended := lines.dropLast.map (· ++ "\n")
  match lines.getLast? with
  | some last => if last.isEmpty then ended else ended ++ [last]
  | none => ended

end Cosim.Script
