import Cosim.Command.Line

/-!
# Options of the programs

The command lines of the three programs: one builds a case, one imports a system structure, and one
watches results.  All of them say how much is logged.
-/

namespace Cosim.Command

/-! ## Logging -/

/-- What is logged, from nothing to everything. -/
inductive Level where
  | off
  | error
  | warn
  | info
  | debug
  | trace
deriving DecidableEq

namespace Level

def all : List Level := [.off, .error, .warn, .info, .debug, .trace]

def text : Level → String
  | .off => "OFF"
  | .error => "ERROR"
  | .warn => "WARN"
  | .info => "INFO"
  | .debug => "DEBUG"
  | .trace => "TRACE"

/-- The level so many steps above information, as far as there are levels. -/
def verbose (n : Nat) : Level := (all[3 + n]?).getD .trace

/-- The level so many steps below information, as far as there are levels. -/
def quiet (n : Nat) : Level := (all[3 - n]?).getD .off

/-- The levels of a log file by their names. -/
def ofName? : String → Option Level
  | "DEBUG" => some .debug
  | "INFO" => some .info
  | "WARNING" => some .warn
  | "ERROR" => some .error
  | "CRITICAL" => some .error
  | _ => none

def names : List String := ["DEBUG", "INFO", "WARNING", "ERROR", "CRITICAL"]

end Level

structure Logging where
  console : Level
  file : Option String
  fileLevel : Level
deriving DecidableEq

namespace Logging

def parameters : List Parameter := [
  ⟨"verbose", some 'v', .count⟩,
  ⟨"quiet", some 'q', .count⟩,
  ⟨"log", none, .value .path⟩,
  ⟨"log-level", none, .value (.oneOf Level.names)⟩,
  ⟨"help", some 'h', .help⟩,
  ⟨"version", some 'V', .version⟩]

def ofLine (l : Line) : Logging where
  console := if 0 < l.count "quiet" then .quiet (l.count "quiet") else .verbose (l.count "verbose")
  file := l.path? "log"
  fileLevel := ((l.word? "log-level").bind Level.ofName?).getD .warn

end Logging

/-- The grammar of a program with an operand and parameters of its own. -/
def Grammar.ofProgram (operand : String) (own : List Parameter) : Grammar :=
  ⟨operand, own ++ Logging.parameters, some ("quiet", "verbose")⟩

/-! ## Programs -/

/-- The options of the program that builds a case. -/
structure BuildOptions where
  caseFile : String
  inspect : Bool
  graph : Bool
  logging : Logging

namespace BuildOptions

def grammar : Grammar :=
  .ofProgram "caseDict" [⟨"inspect", none, .flag⟩, ⟨"graph", none, .flag⟩]

def ofLine (l : Line) : BuildOptions where
  caseFile := (l.path? "caseDict").getD ""
  inspect := l.has "inspect"
  graph := l.has "graph"
  logging := .ofLine l

def read (arguments : List String) : Except UsageError BuildOptions :=
  (Line.read grammar arguments).map ofLine

end BuildOptions

/-- The options of the program that imports a system structure. -/
structure ImportOptions where
  structureFile : String
  logging : Logging

namespace ImportOptions

def grammar : Grammar := .ofProgram "systemStructureFile" []

def ofLine (l : Line) : ImportOptions where
  structureFile := (l.path? "systemStructureFile").getD ""
  logging := .ofLine l

def read (arguments : List String) : Except UsageError ImportOptions :=
  (Line.read grammar arguments).map ofLine

end ImportOptions

/-- The options of the program that watches results.  The interval between looks and the time to
watch are numbers of seconds. -/
structure WatchOptions where
  watchFile : String
  plot : Bool
  dump : Bool
  skip : Option Nat
  latest : Option Nat
  interval : Double
  timeout : Double
  logging : Logging

namespace WatchOptions

def grammar : Grammar :=
  .ofProgram "watchDict" [
    ⟨"plot", none, .flag⟩,
    ⟨"dump", none, .flag⟩,
    ⟨"skip", none, .value .natural⟩,
    ⟨"latest", none, .value .natural⟩,
    ⟨"interval", none, .value .real⟩,
    ⟨"timeout", none, .value .real⟩]

def ofLine (l : Line) : WatchOptions where
  watchFile := (l.path? "watchDict").getD ""
  plot := l.has "plot"
  dump := l.has "dump"
  skip := l.natural? "skip"
  latest := l.natural? "latest"
  interval := (l.real? "interval").getD (Double.ofNat 2)
  timeout := (l.real? "timeout").getD (Double.ofNat 600)
  logging := .ofLine l

def read (arguments : List String) : Except UsageError WatchOptions :=
  (Line.read grammar arguments).map ofLine

end WatchOptions

end Cosim.Command
