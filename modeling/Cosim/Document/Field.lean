import Cosim.Number.Literal
import Cosim.Xml.Tree

/-!
# Fields of elements

Typed views of the attributes and children of an element, as documents have them.  A value must
read as its type as it stands, without white space around it; of several children that should be
one the last counts, but all must be readable.
-/

namespace Cosim.Document

open Xml (Element Node)

variable {α : Type}

/-! ## Reading -/

/-- The value of an attribute that may be missing, but may not occur twice. -/
def optional? (read? : List Char → Option α) (e : Element) (key : String) : Option (Option α) :=
  match e.attributes.filter (·.1 == key) with
  | [] => some none
  | [(_, s)] => (read? s.toList).map some
  | _ => none

/-- The value of an attribute that must be there. -/
def required? (read? : List Char → Option α) (e : Element) (key : String) : Option α :=
  (optional? read? e key).join

/-- A text is a value as it stands. -/
def text? (cs : List Char) : Option String := some (String.ofList cs)

/-- The words for the two booleans. -/
def bool? (cs : List Char) : Option Bool :=
  let word := String.ofList cs
  if ["t", "true", "y", "yes", "on", "1"].contains word then some true
  else if ["f", "false", "n", "no", "off", "0"].contains word then some false
  else none

/-- The children of a name. -/
def many? (read? : Element → Option α) (e : Element) (name : String) : Option (List α) :=
  (e.childrenNamed name).mapM read?

/-- The child of a name, if there is one. -/
def one? (read? : Element → Option α) (e : Element) (name : String) : Option (Option α) :=
  (many? read? e name).map (·.getLast?)

/-- The text that an element holds. -/
def content (e : Element) : String :=
  String.join (e.children.map fun
    | .text s => s
    | _ => "")

/-! ## Writing -/

/-- An element with those of the attributes that have a value. -/
def element (name : String) (attributes : List (String × Option String))
    (children : List Element) : Element :=
  ⟨name, attributes.filterMap fun (key, value) => value.map (key, ·),
    children.map Node.ofElement⟩

/-- An element that holds a text. -/
def textElement (name s : String) : Element := ⟨name, [], [.text s]⟩

end Cosim.Document
