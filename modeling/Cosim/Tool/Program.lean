import Cosim.Tool.Tool

/-!
# Programs as tools

A program makes a proxy, another one renders a graph.  How programs are started and what they do to
the disk is told by a `Launcher`.  A program that runs is looked at in fixed intervals, and is
stopped at the first look at which its time is up.
-/

namespace Cosim

/-- A program with its arguments, and the folder in which it runs unless that is the current one. -/
structure Call where
  program : String
  arguments : List String
  folder : Option String
deriving DecidableEq

namespace Call

/-- Whether a text has a null character, which no name or argument of a program can have. -/
def hasNull (s : String) : Bool := s.toList.contains '\x00'

/-- The program as messages name it. -/
def shown (call : Call) : String :=
  if hasNull call.program then "<string-with-nul>" else call.program

/-- Whether a call can be made at all. -/
def isPossible (call : Call) : Bool :=
  !(call.program :: call.folder.toList ++ call.arguments).any hasNull

end Call

/-- How the call of a program ends. -/
inductive Ending where
  | notStarted (reason : String)
  | finished (status : ExitStatus) (complaint : String)
  /-- the program still ran at the deadline -/
  | overdue

/-- Calls a program and stops it at a deadline. -/
abbrev Launcher := Call → (deadline : Span) → Action Ending

namespace Launcher

/-- The reason of a system that finds no program. -/
def missingReason : String := "No such file or directory (os error 2)"

/-- A launcher that finds no programs. -/
def absent : Launcher := fun _ _ => pure (.notStarted missingReason)

/-- The time between two looks at a program. -/
def lookInterval : Span := .ofMilliseconds 50

/-- The time of the first look at which a limit has passed. -/
def deadline (limit : Span) : Span :=
  let step := lookInterval.nanoseconds
  ⟨(limit.nanoseconds + step - 1) / step * step⟩

/-- The reason where a call cannot be made. -/
def nullReason : String := "nul byte found in provided data"

/-- Runs a program, which has to succeed within the limit. -/
def run (launch : Launcher) (call : Call) (limit : Span) : Action PUnit := do
  if !call.isPossible then throw (.tool (.notStarted call.shown nullReason))
  match ← launch call (deadline limit) with
  | .notStarted reason => throw (.tool (.notStarted call.program reason))
  | .finished (.code 0) _ => pure ()
  | .finished status complaint => throw (.tool (.failed call.program status complaint))
  | .overdue => throw (.timeout (.program call.program limit))

/-- The time that a tool has. -/
def toolLimit : Span := .ofMilliseconds 60000

/-- The tool that makes proxies by a program, which runs in the folder of the FMU. -/
def proxyTool (launch : Launcher) (program : String) : ProxyTool := fun fmu host portNumber => do
  match Path.fileName? fmu with
  | none => throw (.tool (.noFile fmu))
  | some name =>
    launch.run ⟨program, [name, s!"--remote={host}:{portNumber}"], some (Path.folder fmu)⟩ toolLimit
    let proxy := proxyPath fmu
    if !(← get).pathExists proxy then throw (.tool (.noProduct program proxy))
    pure proxy

/-- The tool that renders graphs by a program. -/
def graphRenderer (launch : Launcher) (program : String) : GraphRenderer := fun source output =>
  launch.run ⟨program, ["-Tpdf", "-o", output, source], none⟩ toolLimit

end Launcher

end Cosim
