import Cosim.Document.Token
import Cosim.Xml.Tree

/-!
# Forms of documents

A form says which elements a kind of document may hold.  `Form.read?` reads a document by a form:
elements that the form does not know are passed over, whatever they hold, and so are texts between
elements.  The result is the tree of the elements that the form knows.
-/

namespace Cosim.Document

open Text (Rest)
open Xml (Element Node)

/-- What an element may hold: a text, or child elements of known names. -/
inductive Form where
  | text
  | children (known : List (String × Form))
deriving Inhabited

namespace Form

/-- An element without content of its own. -/
def leaf : Form := .children []

/-! ## Parts of elements -/

/-- Passes over what is left of an element, which ends where as many elements of its name have
ended as have started. -/
def skip (name : String) (depth : Nat) : (ts : List Token) → Option (Rest ts)
  | [] => none
  | .start n attributes :: ts =>
    (skip name (if n == name then depth + 1 else depth) ts).map (·.cons (.start n attributes))
  | .close n :: ts =>
    if n != name then (skip name depth ts).map (·.cons (.close n))
    else match depth with
      | 0 => some ⟨ts, Nat.lt_succ_self _⟩
      | depth + 1 => (skip name depth ts).map (·.cons (.close n))
  | t :: ts => (skip name depth ts).map (·.cons t)

/-- The text up to the end of an element, in which no other element and no comment may stand. -/
def readText? (name : String) : (ts : List Token) → Option (List Char × Rest ts)
  | [] => none
  | .text content :: ts => do
    let front ← decode? content
    let (s, rest) ← readText? name ts
    pure (front ++ s, rest.cons (.text content))
  | .verbatim content :: ts => do
    let (s, rest) ← readText? name ts
    pure (content ++ s, rest.cons (.verbatim content))
  | .close n :: ts => if n == name then some ([], ⟨ts, Nat.lt_succ_self _⟩) else none
  | _ => none

/-- The attributes of a tag with their references resolved. -/
def attributes? (written : List Attribute) : Option (List (String × String)) :=
  written.mapM fun a => (decode? a.value).map fun value => (a.key, String.ofList value)

/-- An element that holds a text; its attributes are passed over. -/
def textual (name : String) (s : List Char) : Element := ⟨name, [], [.text (String.ofList s)]⟩

/-- An element that has only attributes. -/
def bare? (form : Form) (name : String) (written : List Attribute) : Option Element :=
  match form with
  | .text => some (textual name [])
  | .children _ => (attributes? written).map fun attributes => ⟨name, attributes, []⟩

/-! ## Elements -/

/-- The known elements up to the end of an element. -/
def readChildren? (known : List (String × Form)) (own : String) (ts : List Token) :
    Option (List Element × Rest ts) :=
  match ts with
  | [] => none
  | .close name :: ts => if name == own then some ([], ⟨ts, Nat.lt_succ_self _⟩) else none
  | .empty name written :: ts =>
    match known.lookup name with
    | none => do
      let (es, rest) ← readChildren? known own ts
      pure (es, rest.cons _)
    | some form => do
      let e ← bare? form name written
      let (es, rest) ← readChildren? known own ts
      pure (e :: es, rest.cons _)
  | .start name written :: ts =>
    match known.lookup name with
    | none => do
      let behind ← skip name 0 ts
      let (es, rest) ← readChildren? known own behind.val
      pure (es, (behind.trans rest).cons _)
    | some .text => do
      let (s, behind) ← readText? name ts
      let (es, rest) ← readChildren? known own behind.val
      pure (textual name s :: es, (behind.trans rest).cons _)
    | some (.children inner) => do
      let attributes ← attributes? written
      let (inside, behind) ← readChildren? inner name ts
      let (es, rest) ← readChildren? known own behind.val
      pure (⟨name, attributes, inside.map Node.ofElement⟩ :: es, (behind.trans rest).cons _)
  | t :: ts => do
    let (es, rest) ← readChildren? known own ts
    pure (es, rest.cons t)
termination_by ts.length
decreasing_by
  all_goals simp only [List.length_cons]
  all_goals omega

/-- The first element of a name, whose children have given forms. -/
def readRoot? (known : List (String × Form)) (name : String) (ts : List Token) :
    Option Element :=
  match ts with
  | .aside :: ts => readRoot? known name ts
  | .empty n written :: ts =>
    if n == name then bare? (.children known) name written else readRoot? known name ts
  | .start n written :: ts =>
    if n == name then do
      let attributes ← attributes? written
      let (inside, _) ← readChildren? known name ts
      pure ⟨name, attributes, inside.map Node.ofElement⟩
    else do
      let behind ← skip n 0 ts
      readRoot? known name behind.val
  | _ => none
termination_by ts.length
decreasing_by
  all_goals simp only [List.length_cons]
  all_goals omega

/-- The element of a name in a document, read by a form. -/
def read? (known : List (String × Form)) (name text : String) : Option Element :=
  readRoot? known name (Token.scan text)

end Form

end Cosim.Document
