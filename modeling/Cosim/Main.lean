import Cosim.Archive
import Cosim.Command.Run
import Cosim.Script.Launcher

/-!
# The command line

The first argument names one of the three programs, and the others are its options.  The folders
that the program needs are read from the file system, the program runs on the disk that they make
up, and what it has changed is written back.  A tool is run on that disk as well, so it has to be a
script.  Where there is none, FMUs stand for their proxies and graphs are not rendered.
-/

namespace Cosim.Main

open Command

/-! ## File systems and disks -/

/-- The location of a path, which is resolved lexically. -/
def locationOf (d : Disk) (path : String) : Location :=
  (Path.parts (Path.normalize (d.absolute path))).filterMap fun
    | .name s => some s
    | _ => none

/-- Adds a file or a folder without its files. -/
def loadItem (d : Disk) (path : String) : IO Disk := do
  let place := (← IO.currentDir) / path
  let location := locationOf d path
  if ← place.isDir then pure (d.putFolders location)
  else if ← place.pathExists then
    let content := Content.bytes (← IO.FS.readBinFile place)
    pure ((d.putFolders location.dropLast).put location (.file content false))
  else pure d

/-- Adds a folder with its files. -/
def loadFolder (d : Disk) (path : String) : IO Disk := do
  let place := (← IO.currentDir) / path
  if !(← place.isDir) then return d
  let mut d ← loadItem d path
  for entry in ← place.readDir do
    d ← loadItem d (Path.join path entry.fileName)
  pure d

/-- The disk with some folders and their files. -/
def loadDisk (folders : List String) : IO Disk := do
  let here := (← IO.currentDir).toString
  let d := Disk.empty.putFolders (locationOf .empty here)
  folders.foldlM loadFolder { d with current := locationOf d here }

/-- The programs that are used as tools. -/
def tools : Tools := ⟨Script.launcher, "fmu-proxify", "dot"⟩

/-- Adds a tool from a folder of programs, if it is a script. -/
def loadTool (d : Disk) (path : String) : IO Disk := do
  let place := (← IO.currentDir) / path
  if (← place.isDir) || !(← place.pathExists) then return d
  let data ← IO.FS.readBinFile place
  if (Script.Start.interpreter? data).isNone then return d
  let location := locationOf d path
  pure ((d.putFolders location.dropLast).put location (.file (.bytes data) true))

/-- Adds the tools that are scripts. -/
def loadTools (d : Disk) : IO Disk :=
  let paths := Script.System.programFolders.flatMap fun folder =>
    [Path.join folder tools.proxyProgram, Path.join folder tools.graphProgram]
  paths.foldlM loadTool d

/-- The folders of the FMUs that a case dictionary refers to. -/
def fmuFolders (caseFile : String) (d : Disk) : List String :=
  match Case.load caseFile d with
  | .ok c _ => c.library :: c.fmuFiles.map fun fmu => Path.folder (Path.join c.library fmu)
  | .error _ _ => []

/-- Writes what has changed between two states of a disk. -/
def saveChanges (before after : Disk) : IO Unit := do
  let path (l : Location) : String := "/" ++ "/".intercalate l
  for (l, _) in before.items do
    if (after.item? l).isNone then IO.FS.removeFile (path l)
  for (l, item) in after.items do
    if before.item? l != some item then
      match item with
      | .folder => IO.FS.createDirAll (path l)
      | .file content _ => IO.FS.writeBinFile (path l) content.toBytes

/-! ## Messages -/

def UsageError.text : UsageError → String
  | .unknownArgument => "unexpected argument"
  | .missingOperand => "a required argument is missing"
  | .missingValue => "a value is required"
  | .invalidValue => "invalid value"
  | .malformedValue => "invalid number"
  | .surplusValue => "unexpected value"
  | .conflict => "an argument cannot be used here"
  | .helpWanted => ""
  | .versionWanted => ""

/-- The text of a failure; formats without a wording of their own are told by their kind. -/
def failureText (f : Failure) : String :=
  match f, f.message with
  | .dictionary path _, message => s!"Invalid dictionary {path}: " ++ message.getD "malformed"
  | _, some message => message
  | .archiveFormat, none => "Invalid archive"
  | .tableFormat, none => "Invalid result file"
  | .document, none => "Invalid document"
  | _, none => "A file cannot be read or written"

def setbackText : Setback → String
  | .failure (some context) cause => s!"{context}\n\nCaused by:\n    " ++ failureText cause
  | .failure none cause => failureText cause
  | .unrepresentable seconds => s!"no span of {seconds.plain} seconds"

/-- The first line of the help of a program. -/
def usageLine (program : String) (g : Grammar) : String :=
  s!"Usage: {program} [OPTIONS] <{g.operand}>"

/-- The help of a program. -/
def help (program : String) (g : Grammar) : String :=
  let option (p : Parameter) : String :=
    let letter := match p.letter with
      | some c => s!"-{c}, "
      | none => "    "
    let value := match p.role with
      | .value _ => s!" <{p.name.toUpper}>"
      | _ => ""
    s!"  {letter}--{p.name}{value}"
  "\n".intercalate ([usageLine program g, "", "Options:"] ++ g.parameters.map option)

/-- Answers what is no set of options, and tells the exit status. -/
def answerUsage (program : String) (g : Grammar) (e : UsageError) : IO UInt32 := do
  match e with
  | .helpWanted => IO.println (help program g); pure 0
  | .versionWanted => IO.println s!"{program} 0.1.0"; pure 0
  | e =>
    IO.eprintln ("error: " ++ UsageError.text e ++ "\n\n" ++ usageLine program g)
    pure 2

/-! ## Running -/

/-- Runs work on a disk, writes its changes, and gives its result unless there is a setback. -/
def perform {α : Type} (d : Disk) (work : Work α) : IO (Option α) := do
  match work d with
  | .ok a after => saveChanges d after; pure (some a)
  | .error e after =>
    saveChanges d after
    IO.eprintln ("Error: " ++ setbackText e)
    pure none

def showsReport (l : Logging) : Bool :=
  match l.console with
  | .info => true
  | .debug => true
  | .trace => true
  | _ => false

def build (o : BuildOptions) : IO UInt32 := do
  let folder := Path.folder o.caseFile
  let first ← loadDisk [folder]
  let d ← loadTools (← loadDisk (folder :: fmuFolders o.caseFile first))
  match ← perform d (o.run tools) with
  | some (_, report) =>
    if showsReport o.logging then report.forM IO.eprintln
    pure 0
  | none => pure 1

def importStructure (o : ImportOptions) : IO UInt32 := do
  let d ← loadDisk [Path.folder o.structureFile]
  match ← perform d o.run with
  | some _ => pure 0
  | none => pure 1

/-- The moment of now: the files are those of the file system. -/
def momentNow (w : Watch.Watcher) (started : Nat) : IO (Disk × Watch.Moment) := do
  let d ← loadDisk [w.folder]
  let elapsed := (← IO.monoNanosNow) - started
  pure (d, ⟨id, w.limit.nanoseconds ≤ elapsed⟩)

def pause (interval : Span) : IO Unit :=
  IO.sleep (interval.nanoseconds / Nat.pow 10 6).toUInt32

/-- Waits until there are result files; there are none after a setback. -/
partial def awaitFiles (w : Watch.Watcher) (interval : Span) (started : Nat) : IO Bool := do
  let (d, m) ← momentNow w started
  match ← perform d (.ofAction none (Watch.Watcher.waitStep w.folder w.limit m)) with
  | none => pure false
  | some (some _) => pure true
  | some none => pause interval; awaitFiles w interval started

/-- Watches until the watching ends. -/
partial def follow (w : Watch.Watcher) (interval : Span) (started : Nat) (dumping : Bool)
    (p : Watch.Progress) : IO UInt32 := do
  let (d, m) ← momentNow w started
  let look : Watch.Progress → Action (Watch.Progress × Bool) := fun p => do
    let (p, t, done) ← w.watchStep p m
    if done && dumping then w.dump t
    pure (p, done)
  match ← perform d (.ofAction none (look p)) with
  | none => pure 1
  | some (p, done) =>
    if done then pure 0
    else
      pause interval
      follow w interval started dumping p

def watch (o : WatchOptions) : IO UInt32 := do
  let started ← IO.monoNanosNow
  let d ← loadDisk [Path.folder o.watchFile]
  match ← perform d o.prepare with
  | none => pure 1
  | some (w, interval) =>
    if ← awaitFiles w interval started then follow w interval started o.dump .initial
    else pure 1

/-- Reads options and runs with them. -/
def withOptions {α : Type} (program : String) (g : Grammar) (options : Except UsageError α)
    (run : α → IO UInt32) : IO UInt32 :=
  match options with
  | .ok o => run o
  | .error e => answerUsage program g e

def run (program : String) (arguments : List String) : IO UInt32 :=
  match program with
  | "ospCaseBuilder" => withOptions program BuildOptions.grammar (BuildOptions.read arguments) build
  | "importSystemStructure" =>
    withOptions program ImportOptions.grammar (ImportOptions.read arguments) importStructure
  | "watchCosim" => withOptions program WatchOptions.grammar (WatchOptions.read arguments) watch
  | _ => do
    IO.eprintln "The programs are ospCaseBuilder, importSystemStructure and watchCosim."
    pure 2

end Cosim.Main

def main (arguments : List String) : IO UInt32 :=
  match arguments with
  | program :: options => Cosim.Main.run program options
  | [] => Cosim.Main.run "" []
