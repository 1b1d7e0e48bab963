import Cosim.Entries

/-!
# XML trees

Elements with their attributes and children in order.  The edits of this module change attributes
only; everything else stays where it is.
-/

namespace Cosim.Xml

/-- A child of an element. -/
inductive Node where
  | element (name : String) (attributes : List (String × String)) (children : List Node)
  | text (s : String)
  | comment (s : String)
deriving BEq, Inhabited

structure Element where
  name : String
  attributes : Entries String
  children : List Node
deriving BEq, Inhabited

namespace Node

def ofElement (e : Element) : Node := .element e.name e.attributes e.children

/-- The element that a child is, if it is one. -/
def element? : Node → Option Element
  | .element name attributes children => some ⟨name, attributes, children⟩
  | _ => none

end Node

namespace Element

/-- The value of an attribute. -/
def attr? (e : Element) (key : String) : Option String := e.attributes.get? key

/-- Sets an attribute, in its place or at the end. -/
def setAttr (e : Element) (key value : String) : Element :=
  { e with attributes := e.attributes.put key value }

/-- The child elements. -/
def elements (e : Element) : List Element := e.children.filterMap Node.element?

/-- The first child element with a name. -/
def child? (e : Element) (name : String) : Option Element :=
  e.elements.find? (·.name == name)

/-- The child elements with a name. -/
def childrenNamed (e : Element) (name : String) : List Element :=
  e.elements.filter (·.name == name)

/-- Changes the first child element that satisfies a condition. -/
def changeFirst (p : Element → Bool) (change : Element → Element) : List Node → List Node
  | [] => []
  | node :: nodes =>
    match node.element? with
    | some e =>
      if p e then .ofElement (change e) :: nodes else node :: changeFirst p change nodes
    | none => node :: changeFirst p change nodes

/-- Changes the first child element with a name. -/
def changeChild (e : Element) (name : String) (change : Element → Element) : Element :=
  { e with children := changeFirst (·.name == name) change e.children }

end Element

end Cosim.Xml
