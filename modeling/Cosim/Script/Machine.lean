import Cosim.Archive
import Cosim.Script.Bytes
import Cosim.Script.Calculation
import Cosim.Script.Reader
import Cosim.Script.System
import Cosim.Tool.Program

/-!
# Machines

The state of a script that runs: its values, where its channels lead, and how much time has passed.
A `Run` works on a machine and on the disk; it may leave the place where it stands, up to the end of
the script.  Time passes by commands, and a script is stopped when its deadline has come.
-/

namespace Cosim.Script

/-! ## State -/

/-- Bytes that have been written, and how many of them have been read.  More of them may follow
without end. -/
structure Stream where
  data : ByteArray
  position : Nat
  isEndless : Bool
deriving Inhabited

/-- Where a channel leads. -/
inductive Channel where
  | null
  /-- a device that takes no bytes -/
  | full
  | stream (n : Nat)
  | file (l : Location)
deriving DecidableEq

/-- A value; it may only be reserved under its name. -/
structure Variable where
  text : Option String
  exported : Bool
  constant : Bool

structure Options where
  leavesOnFailure : Bool := false
  needsValues : Bool := false
  findsNoFiles : Bool := false
  runsNothing : Bool := false
  shows : Bool := false
  exportsAll : Bool := false
  keepsFiles : Bool := false

/-- A command that runs beside the script. -/
structure Job where
  process : Nat
  status : Nat
  /-- when it ends -/
  finish : Nat
  /-- the streams that it writes to, each with the stream of what it will have written there -/
  written : List (Nat × Nat)

structure Machine where
  name : String
  arguments : List String
  /-- the path of the current folder -/
  folder : String
  values : Entries Variable
  functions : Entries (Nat × Command)
  options : Options
  /-- the commands for signals; no command stands for a signal that is ignored -/
  traps : List (Nat × String)
  streams : Array Stream
  channels : List (Nat × Channel)
  status : Nat
  line : Nat
  /-- the line on which the function starts that runs -/
  functionLine : Nat
  /-- the command that complaints name -/
  command : Option String
  depth : Nat
  loops : Nat
  /-- the values that the function which runs has put aside -/
  putAside : List (String × Option Variable)
  process : Nat
  nextProcess : Nat
  jobs : List Job
  /-- signals that have come and have commands -/
  pending : List Nat
  /-- how the last command ended whose output was put in -/
  captured : Option Nat
  /-- whether a command could not write its output -/
  outputLost : Bool
  /-- how many characters of the current argument options have been read from -/
  optionPlace : Nat
  isSubshell : Bool
  /-- whether it makes place for the program that it runs next -/
  isReplaced : Bool
  elapsed : Nat
  deadline : Nat
  /-- how long jobs go on after the deadline -/
  patience : Nat

/-- How a place of a script is left. -/
inductive Leave where
  | loop (again : Bool) (levels : Nat)
  | function
  | script
  /-- a command has failed so that the script cannot go on -/
  | failure
  | signal (process number : Nat)
  | deadline

/-- Works on a machine and a disk and may be left. -/
abbrev Run := ExceptT Leave (StateT Machine Action)

/-- The number of the stream of complaints. -/
def complaintStream : Nat := 0

/-- The status of a script that cannot go on. -/
def failureStatus : Nat := 2

namespace Machine

/-- The values that every script has from the start. -/
def firstValues (folder : String) : Entries Variable := [
  ("IFS", ⟨some " \t\n", false, false⟩),
  ("OPTIND", ⟨some "1", false, false⟩),
  ("PATH", ⟨some (":".intercalate System.programFolders), false, false⟩),
  ("PPID", ⟨some "1", false, false⟩),
  ("PS1", ⟨some "# ", false, false⟩),
  ("PS2", ⟨some "> ", false, false⟩),
  ("PS4", ⟨some "+ ", false, false⟩),
  ("PWD", ⟨some (ofText folder), true, false⟩)]

/-- The values that programs are given. -/
def givenValues : Entries Variable := [
  ("HOME", ⟨some "/root", true, false⟩),
  ("PATH", ⟨some (":".intercalate System.programFolders), true, false⟩)]

/-- Values, and first ones where there are none. -/
def withFirst (folder : String) (values : Entries Variable) : Entries Variable :=
  (firstValues folder).foldl (fun vs (k, v) => vs.putNew k v) values

/-- The number of the first process. -/
def firstProcess : Nat := 4242

/-- A machine that has not run yet, in a folder and with a deadline.  Nothing can be read by it, and
what it writes is lost but for its complaints. -/
def initial (folder : String) (deadline : Span) : Machine where
  name := ""
  arguments := []
  folder := folder
  values := withFirst folder givenValues
  functions := []
  options := {}
  traps := []
  streams := #[⟨.empty, 0, false⟩]
  channels := [(0, .null), (1, .null), (2, .stream complaintStream)]
  status := 0
  line := 0
  functionLine := 0
  command := none
  depth := 0
  loops := 0
  putAside := []
  process := firstProcess
  nextProcess := firstProcess + 1
  jobs := []
  pending := []
  captured := none
  outputLost := false
  optionPlace := 0
  isSubshell := false
  isReplaced := false
  elapsed := 0
  deadline := deadline.nanoseconds
  patience := 0

/-- The machine of a script that another one starts. -/
def child (m : Machine) : Machine :=
  { m with
    values := withFirst m.folder (m.values.filter fun (_, v) => v.exported)
    functions := []
    options := {}
    traps := m.traps.filter fun (_, s) => s.isEmpty
    status := 0
    line := 0
    functionLine := 0
    command := none
    depth := 0
    loops := 0
    putAside := []
    process := if m.isReplaced then m.process else m.nextProcess
    nextProcess := m.nextProcess + 1
    jobs := []
    pending := []
    captured := none
    outputLost := false
    optionPlace := 0
    isSubshell := false
    isReplaced := false }

/-- A machine that works beside another one on the same streams. -/
def beside (m : Machine) : Machine :=
  { m with
    traps := m.traps.filter fun (_, s) => s.isEmpty
    jobs := []
    loops := 0
    isSubshell := true
    nextProcess := m.nextProcess + 1 }

/-- A machine after another one has worked beside it. -/
def after (m other : Machine) : Machine :=
  { m with
    streams := other.streams
    elapsed := other.elapsed
    nextProcess := other.nextProcess }

/-- What the script has complained about.  Complaints that are no text are lost. -/
def complaint (m : Machine) : String :=
  ((m.streams[complaintStream]?).bind fun s => String.fromUTF8? s.data).getD ""

/-- The letters of the options that are set. -/
def optionLetters (m : Machine) : String :=
  let o := m.options
  String.ofList (([(o.leavesOnFailure, 'e'), (o.findsNoFiles, 'f'), (o.runsNothing, 'n'),
    (o.shows, 'x'), (o.keepsFiles, 'C'), (o.exportsAll, 'a'),
    (o.needsValues, 'u')].filter Prod.fst).map Prod.snd)

/-- The value of a name, if there is one. -/
def value? (m : Machine) (name : String) : Option String :=
  match name with
  | "#" => some (toString m.arguments.length)
  | "?" => some (toString m.status)
  | "$" => some (toString m.process)
  | "!" => m.jobs.getLast?.map fun j => toString j.process
  | "-" => some m.optionLetters
  | _ =>
    if name.toList.all Char.isDigit then
      match Calculation.digits 10 name.toList with
      | (0, _) => some m.name
      | (n, _) => m.arguments[n - 1]?
    else (m.values.get? name).bind Variable.text

/-- The characters that separate words in values. -/
def separators (m : Machine) : List Char := ((m.value? "IFS").getD " \t\n").toList

end Machine

/-! ## Leaving -/

namespace Run

/-- What happens in a run, and how it is left. -/
def attempt (run : Run PUnit) : Run (Except Leave PUnit) :=
  ExceptT.lift (ExceptT.run run)

def leave {α : Type} (l : Leave) : Run α := throw l

def setStatus (n : Nat) : Run PUnit := modify fun m => { m with status := n }

/-- Lets time pass. -/
def pass (nanoseconds : Nat) : Run PUnit := do
  modify fun m => { m with elapsed := m.elapsed + nanoseconds }
  let m ← get
  if m.deadline ≤ m.elapsed then leave .deadline

/-- Goes on until the deadline. -/
def goOn : Run PUnit := do
  modify fun m => { m with elapsed := max m.elapsed m.deadline }
  leave .deadline

def disk : Run Disk := ExceptT.lift (StateT.lift get)

def setDisk (d : Disk) : Run PUnit := ExceptT.lift (StateT.lift (set d))

/-! ## Channels -/

/-- Opens a stream with bytes. -/
def openStream (data : ByteArray) (isEndless : Bool := false) : Run Nat := do
  let m ← get
  set { m with streams := m.streams.push ⟨data, 0, isEndless⟩ }
  pure m.streams.size

/-- Writes bytes to a channel, unless it takes none. -/
def write (channel : Nat) (data : ByteArray) : Run Bool := do
  let m ← get
  match m.channels.lookup channel with
  | none => pure false
  | some .null => pure true
  | some .full => pure (data.size == 0)
  | some (.stream n) =>
    modify fun m =>
      { m with streams := m.streams.modify n fun s => { s with data := s.data ++ data } }
    pure true
  | some (.file l) =>
    let d ← disk
    match d.item? l with
    | some (.file content executable) =>
      setDisk (d.put l (.file (.bytes (content.toBytes ++ data)) executable))
    | _ => pure ()
    pure true

/-- Writes more and more to a channel.  A stream has no end by that; nothing else is left. -/
def writeOn (channel : Nat) : Run PUnit := do
  let m ← get
  match m.channels.lookup channel with
  | none => pure ()
  | some .full => pure ()
  | some (.stream n) =>
    if n == complaintStream then goOn
    else
      modify fun m =>
        { m with streams := m.streams.modify n fun s => { s with isEndless := true } }
  | some _ => goOn

/-- Whether a channel can be read without end. -/
def isEndless (channel : Nat) : Run Bool := do
  let m ← get
  match m.channels.lookup channel with
  | some (.stream n) => pure (m.streams[n]?.any Stream.isEndless)
  | _ => pure false

/-- Adds what jobs have written to the streams that they write to, for jobs of a kind. -/
def deliver (isDone : Job → Bool) : Run PUnit :=
  modify fun m =>
    let streams := (m.jobs.filter isDone).foldl (fun streams j =>
      j.written.foldl (fun streams (n, k) =>
        match (streams : Array Stream)[k]? with
        | some s => streams.modify n fun t => { t with data := t.data ++ s.data }
        | none => streams) streams) m.streams
    { m with
      streams := streams
      jobs := m.jobs.map fun j => if isDone j then { j with written := [] } else j }

/-- The bytes that are left to read on a channel. -/
def peek (channel : Nat) : Run ByteArray := do
  let m ← get
  match m.channels.lookup channel with
  | some (.stream n) =>
    match m.streams[n]? with
    | some s => pure (s.data.extract s.position s.data.size)
    | none => pure .empty
  | some (.file l) =>
    match (← disk).item? l with
    | some (.file content _) => pure content.toBytes
    | _ => pure .empty
  | _ => pure .empty

/-- Takes bytes from a channel. -/
def consume (channel count : Nat) : Run PUnit :=
  modify fun m =>
    match m.channels.lookup channel with
    | some (.stream n) =>
      { m with streams := m.streams.modify n fun s => { s with position := s.position + count } }
    | _ => m

/-- Connects a channel. -/
def connect (channel : Nat) (target : Option Channel) : Run PUnit :=
  modify fun m =>
    let others := m.channels.filter fun (n, _) => n != channel
    match target with
    | some t => { m with channels := (channel, t) :: others }
    | none => { m with channels := others }

/-! ## Complaints -/

/-- What stands before complaints. -/
def origin : Run String := do
  let m ← get
  match m.command with
  | some c => pure s!"{m.name}: {m.line}: {c}: "
  | none => pure s!"{m.name}: {m.line}: "

/-- Complains in the name of the script. -/
def complain (text : String) : Run PUnit := do
  let _ ← write 2 (toData ((← origin) ++ text ++ "\n"))

/-- Complains and cannot go on. -/
def fail {α : Type} (text : String) : Run α := do
  complain text
  setStatus failureStatus
  leave .failure

/-! ## Values -/

/-- Gives a name a value. -/
def assign (name value : String) : Run PUnit := do
  let m ← get
  match m.values.get? name with
  | some v =>
    if v.constant then fail s!"{name}: is read only"
    else
      let v := { v with text := some value, exported := v.exported || m.options.exportsAll }
      set { m with values := m.values.put name v }
  | none => set { m with values := m.values.put name ⟨some value, m.options.exportsAll, false⟩ }
  if name == "OPTIND" then modify fun m => { m with optionPlace := 0 }

/-- The value of a name, which some scripts need to be there. -/
def valueOf (name : String) : Run (Option String) := do
  let m ← get
  match m.value? name with
  | some s => pure (some s)
  | none =>
    if m.options.needsValues then fail s!"{name}: parameter not set" else pure none

end Run

end Cosim.Script
