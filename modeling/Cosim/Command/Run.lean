import Cosim.Command.Options
import Cosim.Deploy.Compile
import Cosim.Osp.Import
import Cosim.Tool.Program
import Cosim.Watch.Watcher

/-!
# Running the programs

What the three programs do to the disk.  A setback says what was being done, and why it could not
be done.  A span that cannot be represented, such as an infinite one, is the caller's fault and no
setback of the work.
-/

namespace Cosim.Command

/-- Why a program stops. -/
inductive Setback where
  /-- the work has failed; the context says what was being done -/
  | failure (context : Option String) (cause : Failure)
  /-- a number of seconds is no span -/
  | unrepresentable (seconds : Double)

/-- What a program does. -/
abbrev Work := EStateM Setback Disk

namespace Work

/-- An action as work, in a context. -/
def ofAction {α : Type} (context : Option String) (action : Action α) : Work α := fun d =>
  match action d with
  | .ok a d => .ok a d
  | .error f d => .error (.failure context f) d

/-- The span of a number of seconds; numbers below zero, and what is no number, count as zero. -/
def span (seconds : Double) : Work Span :=
  let floored := if seconds.isNaN || seconds.isNegative then Double.zero else seconds
  match Span.ofSeconds? floored with
  | some s => pure s
  | none => throw (.unrepresentable seconds)

end Work

/-- The programs that are used as tools. -/
structure Tools where
  launch : Launcher
  proxyProgram : String
  graphProgram : String

/-- Builds a case. -/
def BuildOptions.run (o : BuildOptions) (tools : Tools) : Work (Case × List String) :=
  let proxyTool := tools.launch.proxyTool tools.proxyProgram
  let renderer := tools.launch.graphRenderer tools.graphProgram
  .ofAction (some s!"Compiling {o.caseFile}")
    (Case.compile ⟨o.inspect, o.graph⟩ proxyTool renderer o.caseFile)

/-- Imports a system structure, and tells the path of the case dictionary. -/
def ImportOptions.run (o : ImportOptions) : Work String :=
  .ofAction (some s!"Importing {o.structureFile}") (Osp.Structure.importFile o.structureFile)

namespace WatchOptions

open Watch

/-- The watcher that the options and a plan ask for. -/
def watcher (o : WatchOptions) (plan : Plan) (limit : Span) : Watcher :=
  ⟨plan, Path.folder o.watchFile, ⟨o.skip, o.latest⟩, limit⟩

/-- Reads the plan and the spans: the watcher and the interval between its looks. -/
def prepare (o : WatchOptions) : Work (Watcher × Span) := do
  let plan ← Work.ofAction (some s!"Reading {o.watchFile}") (Plan.load o.watchFile)
  let interval ← Work.span o.interval
  let limit ← Work.span o.timeout
  pure (o.watcher plan limit, interval)

/-- Watches results in a course of moments, which depends on the interval and on the limit.  There
is no table where the moments end before the watching does. -/
def run (o : WatchOptions) (moments : (interval limit : Span) → List Moment) :
    Work (Option Table) := do
  let (watcher, interval) ← o.prepare
  Work.ofAction none (watcher.finish o.dump (moments interval watcher.limit))

end WatchOptions

end Cosim.Command
