import Cosim.Case
import Cosim.Deploy.CallGraph
import Cosim.Deploy.OspModel
import Cosim.Deploy.OspStructure
import Cosim.Deploy.Report
import Cosim.Deploy.Results
import Cosim.Deploy.SspDescription
import Cosim.Deploy.Statistics
import Cosim.Deploy.WatchPlan

/-!
# Compiling cases

To compile a case is to remove old results from its folder, to copy its FMUs there, to build its
system, and to write everything that a co-simulation master needs.  An inspection ends with a
report instead of writing.  A graph that cannot be rendered is no failure.
-/

namespace Cosim

namespace Case

/-! ## FMUs -/

/-- Copies one FMU of the library into the case folder, under its file name. -/
def copyFmu (c : Case) (fmu : String) : Action String := do
  let source := Path.join c.library fmu
  match Path.fileName? source with
  | none => throw (.case (.invalidFmuPath fmu))
  | some name =>
    if !(← get).isFile source then throw (.notFound source)
    let target := Path.join c.folder name
    Action.copy source target
    pure target

/-- Copies the FMUs of the library into the case folder. -/
def copyFmus (c : Case) : Action (List String) := c.fmuFiles.mapM c.copyFmu

/-! ## Outputs -/

/-- Writes a text file into the case folder. -/
def output (c : Case) (name text : String) : Action String := do
  let path := Path.join c.folder name
  Action.writeText path text
  pure path

/-- Writes a dictionary into the case folder. -/
def outputDictionary (c : Case) (name : String) (d : Dictionary) : Action String := do
  let path := Path.join c.folder name
  Dictionary.save path d
  pure path

/-- The names under which documents are written. -/
def ospStructureName : String := "OspSystemStructure.xml"

def sspDescriptionName : String := "SystemStructure.ssd"

def statisticsName : String := "statisticsDict"

def watchPlanName : String := "watchDict"

def graphName : String := "callGraph"

def ospModelName (component : String) : String := component ++ "_OspModelDescription.xml"

/-- Writes everything about the system of a case, and lists the files. -/
def writeOutputs (c : Case) : Action (List String) := do
  match c.system with
  | none => throw (.case (.notSetUp c.name))
  | some system =>
    let models ← system.components.values.mapM fun component =>
      c.output (ospModelName component.name) (Document.pretty component.ospModel.toElement)
    let ospStructure ← c.output ospStructureName
      (Document.pretty (system.ospStructure c.simulation).toElement)
    let description ← c.output sspDescriptionName
      (Document.pretty (system.sspDescription c.name c.simulation).toElement)
    let statistics ← c.outputDictionary statisticsName (system.statistics c.name c.simulation)
    let watchPlan ← c.outputDictionary watchPlanName
      (system.watchPlan c.name c.simulation (c.dictionary.get? "postProcessing"))
    pure (models ++ [ospStructure, description, statistics, watchPlan])

/-- Writes the graph of a system into a folder and renders it, if that can be done. -/
def renderGraph (folder : String) (system : System) (renderer : GraphRenderer) :
    Action (Option String) :=
  let source := Path.join folder graphName
  let output := Path.join folder (graphName ++ ".pdf")
  tryCatch (do
    Action.writeText source (CallGraph.render system)
    renderer source output
    pure (some output)) fun _ => pure none

/-! ## Compiling -/

structure CompileOptions where
  /-- report on the case instead of writing outputs -/
  inspect : Bool
  /-- render the graph of the system -/
  graph : Bool

/-- Compiles the case of a case dictionary.  The second result is the report of an inspection. -/
def compile (options : CompileOptions) (proxyTool : ProxyTool) (renderer : GraphRenderer)
    (path : String) : Action (Case × List String) := do
  let c ← load path
  let ownFolder := c.usesOwnFolder (← get)
  let _ ← Results.remove c.folder ownFolder
  if !ownFolder then
    let _ ← c.copyFmus
  let c ← c.setUp proxyTool
  let report := if options.inspect then (c.system.map Report.system).getD [] else []
  if !options.inspect then
    let _ ← c.writeOutputs
    if options.graph then
      match c.system with
      | some system =>
        let _ ← renderGraph c.folder system renderer
      | none => pure ()
  pure (c, report)

end Case

end Cosim
