import Cosim.Model.Unit
import Cosim.Model.Variable
import Cosim.Xml.Build
import Cosim.Xml.Render

/-!
# Model descriptions

The description of a model is kept as the XML tree it was read from, so that writing it again after
an edit changes nothing but what was edited.  Units, variables and the default experiment are views
of the tree.
-/

namespace Cosim

/-- The default settings of an experiment with a model. -/
structure Experiment where
  startTime : Option Double
  stopTime : Option Double
  tolerance : Option Double
  stepSize : Option Double
deriving DecidableEq

structure Description where
  root : Xml.Element
deriving BEq

/-- Why a text is not a model description. -/
inductive DescriptionError where
  | tree (error : Xml.TreeError)
  | otherRoot (name : String)

namespace DescriptionError

/-- The message of an error; malformed markup has none. -/
def message : DescriptionError → Option String
  | .tree error => error.message
  | .otherRoot name => some s!"unexpected root element <{name}>"

end DescriptionError

namespace Description

/-- Reads a description from its XML text. -/
def parse (text : String) : Except DescriptionError Description := do
  let root ← (Xml.Element.parse text).mapError .tree
  if root.name == "fmiModelDescription" then pure ⟨root⟩ else throw (.otherRoot root.name)

def modelName? (d : Description) : Option String := d.root.attr? "modelName"

/-- The identifier of the model in its co-simulation interface. -/
def identifier? (d : Description) : Option String :=
  (d.root.child? "CoSimulation").bind (·.attr? "modelIdentifier")

/-- The unit definitions; of several with one name the first counts. -/
def units (d : Description) : Entries UnitDefinition :=
  match d.root.child? "UnitDefinitions" with
  | none => []
  | some definitions =>
    Entries.ofFirst ((definitions.childrenNamed "Unit").map fun e =>
      let unit := UnitDefinition.ofElement e
      (unit.name, unit))

/-- Names that are kept for the internal variables of tools. -/
def isReserved (name : String) : Bool := name.startsWith "_" || name.startsWith "settings"

/-- The first child element that gives a variable its type. -/
def typedChild? (e : Xml.Element) : Option (DataType × Xml.Element) :=
  e.elements.findSome? fun child => (DataType.ofText? child.name).map (·, child)

/-- The variable that an element describes; internal variables are left out. -/
def variableOf? (e : Xml.Element) : Option Variable := do
  let name ← e.attr? "name"
  if isReserved name then none else
    let typed := typedChild? e
    let ofType (key : String) : Option String := typed.bind fun (_, child) => child.attr? key
    pure {
      name := name
      dataType := typed.map Prod.fst
      causality := (e.attr? "causality").bind Causality.ofText?
      variability := (e.attr? "variability").bind Variability.ofText?
      start := typed.bind fun (type, child) => (child.attr? "start").bind (Start.parse? type)
      valueReference := (e.attr? "valueReference").bind fun s =>
        Literal.bounded? (Nat.pow 2 32) (Text.trimList s.toList)
      description := e.attr? "description"
      quantity := ofType "quantity"
      unit := ofType "unit"
      displayUnit := ofType "displayUnit" }

/-- The variables, without internal ones; of several with one name the last counts. -/
def scalarVariables (d : Description) : Entries Variable :=
  match d.root.child? "ModelVariables" with
  | none => []
  | some all =>
    Entries.ofPairs ((all.childrenNamed "ScalarVariable").filterMap fun e =>
      (variableOf? e).map fun v => (v.name, v))

def experiment? (d : Description) : Option Experiment :=
  (d.root.child? "DefaultExperiment").map fun e =>
    ⟨e.real? "startTime", e.real? "stopTime", e.real? "tolerance", e.real? "stepSize"⟩

/-! ## Writing -/

/-- The name space of schema instances, which every written description declares. -/
def instanceSpace : String × String :=
  ("xmlns:xsi", "http://www.w3.org/2001/XMLSchema-instance")

/-- The XML text, in which the root declares the name space of schema instances. -/
def render (d : Description) : String :=
  if d.root.attributes.has instanceSpace.1 then d.root.render
  else ({ d.root with attributes := instanceSpace :: d.root.attributes } : Xml.Element).render

end Description

end Cosim
