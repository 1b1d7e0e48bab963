import Cosim.Xml.Tag
import Cosim.Xml.Tree

/-!
# Building trees from markup

A tree is built from pieces of markup one after another.  `Building` holds the elements that are
open, the innermost first, and the outermost element once it is closed.  Declarations and
everything outside the outermost element leave no mark.
-/

namespace Cosim.Xml

/-- Why a text is not the text of a tree. -/
inductive TreeError where
  /-- the markup itself is malformed, or a tag or a reference in it is -/
  | malformed
  | strayEnd
  | unclosed (name : String)
  | secondRoot (name : String)
  | noRoot

namespace TreeError

/-- The message of an error; malformed markup has none. -/
def message : TreeError → Option String
  | .malformed => none
  | .strayEnd => some "unbalanced end tag"
  | .unclosed name => some s!"unclosed element <{name}>"
  | .secondRoot name => some s!"second root element <{name}>"
  | .noRoot => some "document has no root element"

end TreeError

/-- An unfinished tree. -/
structure Building where
  /-- the open elements, the innermost first, each with its children in reverse -/
  opened : List Element
  root : Option Element

namespace Building

def initial : Building := ⟨[], none⟩

/-- Adds a child to the innermost open element; outside all elements it is dropped. -/
def add (b : Building) (node : Node) : Building :=
  match b.opened with
  | [] => b
  | e :: outer => { b with opened := { e with children := node :: e.children } :: outer }

/-- Adds a finished element. -/
def attach (b : Building) (e : Element) : Except TreeError Building :=
  match b.opened, b.root with
  | [], none => .ok { b with root := some e }
  | [], some _ => .error (.secondRoot e.name)
  | _, _ => .ok (b.add (.ofElement e))

/-- Takes in one piece of markup. -/
def step (b : Building) : Markup → Except TreeError Building
  | .start content =>
    match Tag.ofContent? content with
    | some tag => .ok { b with opened := ⟨tag.name, tag.attributes, []⟩ :: b.opened }
    | none => .error .malformed
  | .empty content =>
    match Tag.ofContent? content with
    | some tag => b.attach ⟨tag.name, tag.attributes, []⟩
    | none => .error .malformed
  | .close _ =>
    match b.opened with
    | e :: outer =>
      ({ b with opened := outer } : Building).attach { e with children := e.children.reverse }
    | [] => .error .strayEnd
  | .text content =>
    if b.opened.isEmpty then .ok b
    else match decodeList? content with
      | some s => .ok (b.add (.text (String.ofList s)))
      | none => .error .malformed
  | .verbatim content => .ok (b.add (.text (String.ofList content)))
  | .comment content => .ok (b.add (.comment (String.ofList content)))
  | .instruction _ => .ok b
  | .doctype _ => .ok b

/-- The tree, once all pieces are taken in. -/
def finish (b : Building) : Except TreeError Element :=
  match b.opened, b.root with
  | e :: _, _ => .error (.unclosed e.name)
  | [], some root => .ok root
  | [], none => .error .noRoot

end Building

namespace Element

/-- The tree that a scanned text holds. -/
def ofScan (scan : Markup.Scan) : Except TreeError Element := do
  let b ← scan.pieces.foldlM Building.step Building.initial
  if scan.malformed then throw .malformed
  b.finish

/-- The outermost element of an XML text. -/
def parse (text : String) : Except TreeError Element := ofScan (Markup.scan text)

end Element

end Cosim.Xml
