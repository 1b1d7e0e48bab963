import Cosim.Document.Field
import Cosim.Document.Form
import Cosim.Document.Writing

/-!
# SSP system structure descriptions

The exchange format of system structures, as far as it describes components with connectors,
connections and a default experiment.  Elements and attributes are known by their usual prefixes.
-/

namespace Cosim.Ssp

open Document (Form element required? optional? text? many? one?)
open Xml (Element)

/-- The real type of a connector. -/
structure RealType where
  unit : Option String
deriving DecidableEq

structure Connector where
  name : String
  kind : Option String
  real : Option RealType
deriving DecidableEq

structure Component where
  name : String
  source : String
  connectors : Option (List Connector)
deriving DecidableEq

/-- A connection, which runs from the start to the end. -/
structure Connection where
  startElement : String
  startConnector : String
  endElement : String
  endConnector : String
deriving DecidableEq

structure System where
  name : String
  description : Option String
  components : List Component
  connections : Option (List Connection)
deriving DecidableEq

/-- The settings of a fixed step algorithm. -/
structure FixedStep where
  baseStepSize : Option String
  startTime : Option String
  stopTime : Option String
deriving DecidableEq

structure Algorithm where
  fixedStep : Option FixedStep
deriving DecidableEq

structure Annotation where
  type : String
  algorithm : Option Algorithm
deriving DecidableEq

structure Experiment where
  startTime : Option String
  stopTime : Option String
  annotations : Option (List Annotation)
deriving DecidableEq

structure Description where
  ssdSpace : Option String
  sscSpace : Option String
  ssvSpace : Option String
  ospSpace : Option String
  version : String
  name : String
  system : System
  experiment : Option Experiment
deriving DecidableEq

namespace RealType

def ofElement? (e : Element) : Option RealType := do pure ⟨← optional? text? e "unit"⟩

def toElement (t : RealType) : Element := element "ssc:Real" [("unit", t.unit)] []

end RealType

namespace Connector

def ofElement? (e : Element) : Option Connector := do
  pure ⟨← required? text? e "name", ← optional? text? e "kind",
    ← one? RealType.ofElement? e "ssc:Real"⟩

def toElement (c : Connector) : Element :=
  element "ssd:Connector" [("name", c.name), ("kind", c.kind)]
    (c.real.toList.map RealType.toElement)

end Connector

namespace Component

def ofElement? (e : Element) : Option Component := do
  pure ⟨← required? text? e "name", ← required? text? e "source",
    ← one? (many? Connector.ofElement? · "ssd:Connector") e "ssd:Connectors"⟩

def toElement (c : Component) : Element :=
  element "ssd:Component" [("name", c.name), ("source", c.source)]
    (c.connectors.toList.map fun connectors =>
      element "ssd:Connectors" [] (connectors.map Connector.toElement))

end Component

namespace Connection

def ofElement? (e : Element) : Option Connection := do
  pure {
    startElement := ← required? text? e "startElement"
    startConnector := ← required? text? e "startConnector"
    endElement := ← required? text? e "endElement"
    endConnector := ← required? text? e "endConnector" }

def toElement (c : Connection) : Element :=
  element "ssd:Connection"
    [("startElement", c.startElement), ("startConnector", c.startConnector),
      ("endElement", c.endElement), ("endConnector", c.endConnector)] []

end Connection

namespace System

def ofElement? (e : Element) : Option System := do
  let components ← one? (many? Component.ofElement? · "ssd:Component") e "ssd:Elements"
  pure {
    name := ← required? text? e "name"
    description := ← optional? text? e "description"
    components := ← components
    connections :=
      ← one? (many? Connection.ofElement? · "ssd:Connection") e "ssd:Connections" }

def toElement (s : System) : Element :=
  element "ssd:System" [("name", s.name), ("description", s.description)]
    (element "ssd:Elements" [] (s.components.map Component.toElement) ::
      s.connections.toList.map fun connections =>
        element "ssd:Connections" [] (connections.map Connection.toElement))

end System

namespace FixedStep

def ofElement? (e : Element) : Option FixedStep := do
  pure ⟨← optional? text? e "baseStepSize", ← optional? text? e "startTime",
    ← optional? text? e "stopTime"⟩

def toElement (s : FixedStep) : Element :=
  element "osp:FixedStepAlgorithm"
    [("baseStepSize", s.baseStepSize), ("startTime", s.startTime), ("stopTime", s.stopTime)] []

end FixedStep

namespace Algorithm

def ofElement? (e : Element) : Option Algorithm := do
  pure ⟨← one? FixedStep.ofElement? e "osp:FixedStepAlgorithm"⟩

def toElement (a : Algorithm) : Element :=
  element "osp:Algorithm" [] (a.fixedStep.toList.map FixedStep.toElement)

end Algorithm

namespace Annotation

def ofElement? (e : Element) : Option Annotation := do
  pure ⟨← required? text? e "type", ← one? Algorithm.ofElement? e "osp:Algorithm"⟩

def toElement (a : Annotation) : Element :=
  element "ssc:Annotation" [("type", a.type)] (a.algorithm.toList.map Algorithm.toElement)

end Annotation

namespace Experiment

def ofElement? (e : Element) : Option Experiment := do
  pure ⟨← optional? text? e "startTime", ← optional? text? e "stopTime",
    ← one? (many? Annotation.ofElement? · "ssc:Annotation") e "ssd:Annotations"⟩

def toElement (x : Experiment) : Element :=
  element "ssd:DefaultExperiment" [("startTime", x.startTime), ("stopTime", x.stopTime)]
    (x.annotations.toList.map fun annotations =>
      element "ssd:Annotations" [] (annotations.map Annotation.toElement))

end Experiment

namespace Description

/-- A description of a system that declares all name spaces. -/
def of (name : String) (system : System) (experiment : Option Experiment) : Description where
  ssdSpace := some "http://ssp-standard.org/SSP1/SystemStructureDescription"
  sscSpace := some "http://ssp-standard.org/SSP1/SystemStructureCommon"
  ssvSpace := some "http://ssp-standard.org/SSP1/SystemStructureParameterValues"
  ospSpace := some "http://opensimulationplatform.com/SSP/OSPAnnotations"
  version := "1.0"
  name := name
  system := system
  experiment := experiment

def rootName : String := "ssd:SystemStructureDescription"

/-- The elements of the root. -/
def known : List (String × Form) :=
  let connector : Form := .children [("ssc:Real", .leaf)]
  let component : Form :=
    .children [("ssd:Connectors", .children [("ssd:Connector", connector)])]
  let algorithm : Form := .children [("osp:FixedStepAlgorithm", .leaf)]
  let annotation : Form := .children [("osp:Algorithm", algorithm)]
  [("ssd:System", .children [
      ("ssd:Elements", .children [("ssd:Component", component)]),
      ("ssd:Connections", .children [("ssd:Connection", .leaf)])]),
    ("ssd:DefaultExperiment", .children [
      ("ssd:Annotations", .children [("ssc:Annotation", annotation)])])]

def ofElement? (e : Element) : Option Description := do
  let system ← one? System.ofElement? e "ssd:System"
  pure {
    ssdSpace := ← optional? text? e "xmlns:ssd"
    sscSpace := ← optional? text? e "xmlns:ssc"
    ssvSpace := ← optional? text? e "xmlns:ssv"
    ospSpace := ← optional? text? e "xmlns:osp"
    version := ← required? text? e "version"
    name := ← required? text? e "name"
    system := ← system
    experiment := ← one? Experiment.ofElement? e "ssd:DefaultExperiment" }

def toElement (d : Description) : Element :=
  element rootName
    [("xmlns:ssd", d.ssdSpace), ("xmlns:ssc", d.sscSpace), ("xmlns:ssv", d.ssvSpace),
      ("xmlns:osp", d.ospSpace), ("version", d.version), ("name", d.name)]
    (d.system.toElement :: d.experiment.toList.map Experiment.toElement)

/-- Reads a document. -/
def read? (text : String) : Option Description := (Form.read? known rootName text).bind ofElement?

end Description

end Cosim.Ssp
