import Cosim.Case
import Cosim.Osp.Structure

/-!
# Importing system structures

A case dictionary for an OSP system structure.  Every end of a connection gets a connector of its
component, which the first connection that uses it types as output or input.  Connections with
signals have no counterpart in a case, and connections with other than two ends are left out.
-/

namespace Cosim.Osp

/-- Connectors under the names of their components, and connections under new names. -/
structure Wiring where
  connectors : Entries (Entries Connector)
  connections : Entries (Terminal × Terminal)

namespace Wiring

def blank : Wiring := ⟨[], []⟩

/-- The number of two digits or more behind a name. -/
def numbered (base : String) (n : Nat) : String := base ++ "_" ++ Timestamp.padded 2 n

/-- The name itself or, if it is taken, the first of `name_02`, `name_03`, … that is not.  One
more candidate than there are taken names is enough. -/
def freshName (taken : List String) (base : String) : String :=
  if !taken.contains base then base
  else
    let candidates := (List.range (taken.length + 1)).map fun n => numbered base (n + 2)
    (candidates.find? fun name => !taken.contains name).getD base

/-- Adds a connector to a component that has none of its name. -/
def addConnector (w : Wiring) (component : String) (c : Connector) : Wiring :=
  let own := ((w.connectors.get? component).getD []).putNew c.name c
  { w with connectors := w.connectors.put component own }

/-- Adds a connection with connectors at both ends. -/
def addConnection (w : Wiring) (bind : String → Binding) (source target : Terminal) : Wiring :=
  let w := w.addConnector source.owner ⟨source.name, bind source.name, some .output⟩
  let w := w.addConnector target.owner ⟨target.name, bind target.name, some .input⟩
  let name := freshName w.connections.keys s!"{source.owner}_to_{target.owner}"
  { w with connections := w.connections ++ [(name, (source, target))] }

/-- Adds the connection that a link describes, if it has two ends. -/
def addLink (w : Wiring) (link : Link) : Except Failure Wiring :=
  match link with
  | .ofVariables [source, target] => .ok (w.addConnection .variable source target)
  | .ofGroups [source, target] => .ok (w.addConnection .group source target)
  | .ofVariables _ => .ok w
  | .ofGroups _ => .ok w
  | .ofSignals _ _ => .error (.unsupportedConnection link.tag)
  | .ofSignalGroups _ _ => .error (.unsupportedConnection link.tag)

/-- The wiring of a list of links. -/
def ofLinks (links : List Link) : Except Failure Wiring := links.foldlM addLink blank

end Wiring

/-! ## Dictionaries -/

/-- A connector as an entry of a case dictionary. -/
def connectorValue (c : Connector) : Value :=
  .object
    ((match c.binding with
      | some (.variable name) => [("variable", .text name)]
      | some (.group name) => [("variableGroup", .text name)]
      | none => []) ++
    c.direction.toList.map fun d => ("type", .text d.text))

/-- A connection as an entry of a case dictionary. -/
def connectionValue (source target : Terminal) : Value :=
  let endpoint (p : Terminal) : Value :=
    .object [("component", .text p.owner), ("connector", .text p.name)]
  .object [("source", endpoint source), ("target", endpoint target)]

/-- The initial values as a section of a component. -/
def overridesValue (values : List InitialValue) : Dictionary :=
  Entries.ofPairs (values.map fun v => (v.name, .object [("start", v.value.toValue)]))

/-- A simulator as an entry of a case dictionary, given the path of its FMU in the library. -/
def componentValue (s : Simulator) (fmu : String) (connectors : Option (Entries Connector)) :
    Value :=
  let overrides := overridesValue (s.initial.getD [])
  .object
    ((connectors.toList.map fun cs =>
        ("connectors", .object (cs.map fun (name, c) => (name, connectorValue c)))) ++
      [("fmu", .text fmu)] ++
      (s.stepSize.toList.map fun x => ("stepSize", Value.ofReal x)) ++
      if overrides.isEmpty then [] else [("initialize", .object overrides)])

/-- The simulation settings of a structure under a name. -/
def simulationValue (s : Structure) (name : String) : Value :=
  .object (("name", .text name) ::
    [("startTime", s.startTime), ("baseStepSize", s.baseStepSize),
      ("algorithm", s.algorithm)].filterMap fun (key, value) =>
        value.map fun text => (key, Dictionary.scalar (Text.trim text)))

namespace Structure

/-- The case dictionary of a structure whose FMU paths are relative to a folder.  The library of
the case is the deepest folder that holds all FMUs. -/
def toCase (s : Structure) (folder name : String) : Except Failure Dictionary := do
  let wiring ← Wiring.ofLinks (s.connections.getD [])
  let home := Path.normalize folder
  let sources := s.simulators.map fun simulator =>
    Path.normalize (Path.join folder simulator.source)
  let library := (Path.commonRoot? sources).getD home
  let components := Entries.ofPairs ((s.simulators.zip sources).map fun (simulator, source) =>
    (simulator.name, componentValue simulator (Path.relativeTo source library)
      (wiring.connectors.get? simulator.name)))
  let connections := wiring.connections.map fun (key, source, target) =>
    (key, connectionValue source target)
  pure [
    ("_environment", .object [("libSource", .text (Path.relativeTo library home))]),
    ("systemStructure",
      .object [("connections", .object connections), ("components", .object components)]),
    ("run", .object [("simulation", simulationValue s name)])]

/-! ## Files -/

/-- The name of the case dictionary for a document. -/
def caseFileName (document : String) : String :=
  "caseDict_imported_from_" ++ Text.replaceAll "." "_" document

/-- Reads the document of a file. -/
def load (path : String) : Action Structure := do
  match Path.extension? path with
  | some extension =>
    if extension.toList.map Char.toLower != "xml".toList then throw (.unsupportedFormat path)
  | none => throw (.unsupportedFormat path)
  match read? (← Action.readText path) with
  | some s => pure s
  | none => throw .document

/-- Imports the document of a file and writes the case dictionary beside it. -/
def importFile (path : String) : Action String := do
  if !(← get).isFile path then throw (.notFound path)
  let path := (← get).absolute path
  let s ← load path
  let folder := Path.folder path
  let d ← Action.ofExcept (s.toCase folder ((Path.stem? path).getD ""))
  let target := Path.join folder (caseFileName ((Path.fileName? path).getD ""))
  Dictionary.save target d
  pure target

end Structure

end Cosim.Osp
