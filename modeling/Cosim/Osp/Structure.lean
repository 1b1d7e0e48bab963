import Cosim.Document.Field
import Cosim.Document.Form
import Cosim.Document.Writing
import Cosim.Model.Start

/-!
# OSP system structures

The configuration that a co-simulation master reads: the simulators with their initial values, and
the connections between them.
-/

namespace Cosim.Osp

open Document (Form element textElement required? optional? text? many? one?)
open Xml (Element Node)

structure InitialValue where
  name : String
  value : Start
deriving DecidableEq

structure Simulator where
  name : String
  /-- the path of the FMU, relative to the document -/
  source : String
  stepSize : Option Double
  initial : Option (List InitialValue)
deriving DecidableEq

/-- A named terminal of a simulator or of a function. -/
structure Terminal where
  owner : String
  name : String
deriving DecidableEq

/-- A connection.  The first terminal is the source and the second one the target. -/
inductive Link where
  | ofVariables (terminals : List Terminal)
  | ofGroups (terminals : List Terminal)
  /-- a connection between variables and signals of functions -/
  | ofSignals (terminals signals : List Terminal)
  | ofSignalGroups (terminals signals : List Terminal)
deriving DecidableEq

structure Structure where
  xmlns : Option String
  version : Option String
  startTime : Option String
  baseStepSize : Option String
  algorithm : Option String
  simulators : List Simulator
  connections : Option (List Link)
deriving DecidableEq

/-! ## Elements -/

namespace InitialValue

/-- A typed value, such as `<Real value="1.5"/>`. -/
def value? (e : Element) : Option Start :=
  if e.name == "Real" then (required? Literal.real? e "value").map .real
  else if e.name == "Integer" then (required? Literal.int64? e "value").map .int
  else if e.name == "Boolean" then (required? Document.bool? e "value").map .bool
  else if e.name == "String" then (required? text? e "value").map .text
  else none

def ofElement? (e : Element) : Option InitialValue := do
  pure ⟨← required? text? e "variable", ← (← e.elements.mapM value?).getLast?⟩

def toElement (v : InitialValue) : Element :=
  element "InitialValue" [("variable", v.name)]
    [element v.value.dataType.text [("value", v.value.toText)] []]

end InitialValue

namespace Simulator

def ofElement? (e : Element) : Option Simulator := do
  pure {
    name := ← required? text? e "name"
    source := ← required? text? e "source"
    stepSize := ← optional? Literal.real? e "stepSize"
    initial := ← one? (many? InitialValue.ofElement? · "InitialValue") e "InitialValues" }

def toElement (s : Simulator) : Element :=
  element "Simulator"
    [("name", s.name), ("source", s.source), ("stepSize", s.stepSize.map Double.plain)]
    (s.initial.toList.map fun values =>
      element "InitialValues" [] (values.map InitialValue.toElement))

end Simulator

namespace Terminal

def ofElement? (ownerKey : String) (e : Element) : Option Terminal := do
  pure ⟨← required? text? e ownerKey, ← required? text? e "name"⟩

def toElement (name ownerKey : String) (p : Terminal) : Element :=
  element name [(ownerKey, p.owner), ("name", p.name)] []

end Terminal

namespace Link

/-- The name of the element of a connection. -/
def tag : Link → String
  | .ofVariables _ => "VariableConnection"
  | .ofGroups _ => "VariableGroupConnection"
  | .ofSignals _ _ => "SignalConnection"
  | .ofSignalGroups _ _ => "SignalGroupConnection"

def ofElement? (e : Element) : Option Link :=
  let terminals? (name : String) := many? (Terminal.ofElement? "simulator") e name
  let signals? (name : String) := many? (Terminal.ofElement? "function") e name
  if e.name == "VariableConnection" then (terminals? "Variable").map .ofVariables
  else if e.name == "VariableGroupConnection" then (terminals? "VariableGroup").map .ofGroups
  else if e.name == "SignalConnection" then do
    pure (.ofSignals (← terminals? "Variable") (← signals? "Signal"))
  else if e.name == "SignalGroupConnection" then do
    pure (.ofSignalGroups (← terminals? "VariableGroup") (← signals? "SignalGroup"))
  else none

def children : Link → List Element
  | .ofVariables terminals => terminals.map (Terminal.toElement "Variable" "simulator")
  | .ofGroups terminals => terminals.map (Terminal.toElement "VariableGroup" "simulator")
  | .ofSignals terminals inputs =>
    terminals.map (Terminal.toElement "Variable" "simulator") ++
      inputs.map (Terminal.toElement "Signal" "function")
  | .ofSignalGroups terminals inputs =>
    terminals.map (Terminal.toElement "VariableGroup" "simulator") ++
      inputs.map (Terminal.toElement "SignalGroup" "function")

def toElement (l : Link) : Element := element l.tag [] l.children

end Link

namespace Structure

def namespaceName : String := "http://opensimulationplatform.com/MSMI/OSPSystemStructure"

/-- A structure without simulators. -/
def blank : Structure := ⟨some namespaceName, some "0.1", none, none, none, [], none⟩

def rootName : String := "OspSystemStructure"

/-- The elements of the root. -/
def known : List (String × Form) :=
  let values : Form := .children (["Real", "Integer", "Boolean", "String"].map (·, .leaf))
  let simulator : Form :=
    .children [("InitialValues", .children [("InitialValue", values)])]
  [("StartTime", .text), ("BaseStepSize", .text), ("Algorithm", .text),
    ("Simulators", .children [("Simulator", simulator)]),
    ("Connections", .children [
      ("VariableConnection", .children [("Variable", .leaf)]),
      ("VariableGroupConnection", .children [("VariableGroup", .leaf)]),
      ("SignalConnection", .children [("Variable", .leaf), ("Signal", .leaf)]),
      ("SignalGroupConnection", .children [("VariableGroup", .leaf), ("SignalGroup", .leaf)])])]

def ofElement? (e : Element) : Option Structure := do
  let content (e : Element) : Option String := some (Document.content e)
  let simulators ← one? (many? Simulator.ofElement? · "Simulator") e "Simulators"
  pure {
    xmlns := ← optional? text? e "xmlns"
    version := ← optional? text? e "version"
    startTime := ← one? content e "StartTime"
    baseStepSize := ← one? content e "BaseStepSize"
    algorithm := ← one? content e "Algorithm"
    simulators := ← simulators
    connections := ← one? (·.elements.mapM Link.ofElement?) e "Connections" }

def toElement (s : Structure) : Element :=
  element rootName [("xmlns", s.xmlns), ("version", s.version)]
    (s.startTime.toList.map (textElement "StartTime") ++
      s.baseStepSize.toList.map (textElement "BaseStepSize") ++
      s.algorithm.toList.map (textElement "Algorithm") ++
      [element "Simulators" [] (s.simulators.map Simulator.toElement)] ++
      s.connections.toList.map fun links => element "Connections" [] (links.map Link.toElement))

/-- Reads a document. -/
def read? (text : String) : Option Structure := (Form.read? known rootName text).bind ofElement?

/-- The numbers in a structure. -/
def numbers (s : Structure) : List Double :=
  s.simulators.flatMap fun simulator =>
    simulator.stepSize.toList ++ (simulator.initial.getD []).filterMap fun v =>
      match v.value with
      | .real x => some x
      | _ => none

end Structure

end Cosim.Osp
