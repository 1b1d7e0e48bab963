import Cosim.Model.Description
import Cosim.Timestamp

/-!
# Edits of model descriptions

Three edits, all of attributes only: renaming the model, overriding start values, causality and
variability of variables, and recording an edit on the root.
-/

namespace Cosim

/-- An attribute of a variable that an override has changed. -/
structure Change where
  variableName : String
  key : String
  old : Option String
  new : String
deriving DecidableEq

def Change.text (c : Change) : String :=
  let old := c.old.getD "None"
  s!"{c.variableName}.{c.key}: {old} -> {c.new}"

namespace Description

/-- Sets the name of the model, and its identifier in every interface. -/
def rename (d : Description) (name : String) : Description :=
  let setIdentifier (e : Xml.Element) : Xml.Element := e.setAttr "modelIdentifier" name
  ⟨((d.root.setAttr "modelName" name).changeChild "CoSimulation" setIdentifier).changeChild
    "ModelExchange" setIdentifier⟩

/-! ## Overrides -/

/-- Whether an element types a variable as an override demands: by the override's data type, or by
any data type if the override has none. -/
def isTypedAs (type : Option DataType) (e : Xml.Element) : Bool :=
  match type with
  | some t => e.name == t.text
  | none => (DataType.ofText? e.name).isSome

/-- The element of a variable with the start value of an override, and the change made. -/
def overrideStart (name : String) (update : Variable) (e : Xml.Element) :
    Xml.Element × List Change :=
  match update.start, e.elements.find? (isTypedAs update.dataType) with
  | some start, some typed =>
    let setStart (child : Xml.Element) : Xml.Element := child.setAttr "start" start.toText
    ({ e with children := Xml.Element.changeFirst (isTypedAs update.dataType) setStart e.children },
      [⟨name, "start", typed.attr? "start", start.toText⟩])
  | _, _ => (e, [])

/-- An element with an attribute set if there is a value for it, and the change made. -/
def overrideAttr (name key : String) (value : Option String) (e : Xml.Element) :
    Xml.Element × List Change :=
  match value with
  | some value => (e.setAttr key value, [⟨name, key, e.attr? key, value⟩])
  | none => (e, [])

/-- The element of a variable under an override, and the changes made. -/
def overrideElement (name : String) (update : Variable) (e : Xml.Element) :
    Xml.Element × List Change :=
  let (e, start) := overrideStart name update e
  let (e, causality) := overrideAttr name "causality" (update.causality.map Causality.text) e
  let (e, variability) :=
    overrideAttr name "variability" (update.variability.map Variability.text) e
  (e, start ++ causality ++ variability)

/-- Whether an element describes the variable with a name. -/
def describes (name : String) (e : Xml.Element) : Bool :=
  e.name == "ScalarVariable" && e.attr? "name" == some name

/-- Overrides one variable, in the first element that describes it. -/
def overrideIn (declared : Xml.Element) (name : String) (update : Variable) :
    Xml.Element × List Change :=
  match declared.elements.find? (describes name) with
  | none => (declared, [])
  | some e =>
    let change (e : Xml.Element) : Xml.Element := (overrideElement name update e).1
    ({ declared with
        children := Xml.Element.changeFirst (describes name) change declared.children },
      (overrideElement name update e).2)

/-- Overrides variables one after another. -/
def overrideAll (declared : Xml.Element) : List (String × Variable) → Xml.Element × List Change
  | [] => (declared, [])
  | (name, update) :: more =>
    let (changed, changes) := overrideIn declared name update
    let (final, others) := overrideAll changed more
    (final, changes ++ others)

/-- Writes the start values, causalities and variabilities of overrides into the description, and
tells what has changed.  Overrides of unknown variables are passed over. -/
def override (d : Description) (overrides : Entries Variable) : Description × List Change :=
  match d.root.child? "ModelVariables" with
  | none => (d, [])
  | some declared =>
    (⟨d.root.changeChild "ModelVariables" fun e => (overrideAll e overrides).1⟩,
      (overrideAll declared overrides).2)

/-! ## Recording -/

/-- Records an edit: the user becomes the author, the time becomes the time of generation, and the
summary becomes the last line of the description. -/
def record (d : Description) (summary : String) (time : Timestamp.Seconds)
    (user : Option String) : Description :=
  let root := match user with
    | some name => if name.isEmpty then d.root else d.root.setAttr "author" name
    | none => d.root
  let root := root.setAttr "generationDateAndTime" (Timestamp.text time)
  let description := match root.attr? "description" with
    | some old => if old.isEmpty then summary else old ++ "\n" ++ summary
    | none => summary
  ⟨root.setAttr "description" description⟩

end Description

end Cosim
