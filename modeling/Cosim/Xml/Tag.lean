import Cosim.Xml.Entity
import Cosim.Xml.Markup

/-!
# Tags

The name and the attributes of a tag.  `Tag.ofContent?` reads the content of a tag: attributes are
written `key="value"`, in either kind of quotes, and no key may occur twice.  `Tag.content` writes
it again.
-/

namespace Cosim.Xml

open Text (Rest Left before?)

structure Tag where
  name : String
  attributes : List (String × String)
deriving DecidableEq

namespace Tag

/-- One attribute behind white space, and what follows it. -/
def attribute? (cs : List Char) : Option ((List Char × List Char) × Rest cs) :=
  match cs with
  | [] => none
  | c :: body =>
    let isKey (c : Char) : Bool := c != '=' && !isSpace c
    let key := c :: body.takeWhile isKey
    let behindKey := Left.dropWhile isKey body
    let behindSpace := Left.dropWhile isSpace behindKey.val
    match h : behindSpace.val with
    | '=' :: more =>
      let behindEquals := Left.dropWhile isSpace more
      match h' : behindEquals.val with
      | quote :: value =>
        if quote == '"' || quote == '\'' then
          (before? (· == quote) value).map fun (s, rest) =>
            ((key, s), ⟨rest.val, by
              have h1 := behindKey.property
              have h2 := behindSpace.property
              have h3 := behindEquals.property
              have h4 := rest.property
              rw [h, List.length_cons] at h2
              rw [h', List.length_cons] at h3
              simp only [List.length_cons]
              omega⟩)
        else none
      | [] => none
    | _ => none

/-- The attributes that a text lists, with their references resolved. -/
def attributes? (cs : List Char) : Option (List (String × String)) :=
  match _h : cs.dropWhile isSpace with
  | [] => some []
  | c :: body =>
    match attribute? (c :: body) with
    | none => none
    | some ((key, value), rest) => do
      let value ← decodeList? value
      let more ← attributes? rest.val
      pure ((String.ofList key, String.ofList value) :: more)
termination_by cs.length
decreasing_by
  have h1 := Text.length_dropWhile_le isSpace cs
  have h2 := rest.property
  rw [_h] at h1
  omega

/-- The tag with a content.  A content without a proper list of attributes has none. -/
def ofContent? (content : List Char) : Option Tag := do
  let name := tagName content
  let attributes ← attributes? (content.drop name.length)
  if (attributes.map Prod.fst).Nodup then
    pure ⟨String.ofList name, attributes⟩
  else none

/-- The text of an attribute, with a space in front. -/
def attributeText (key value : String) : String := " " ++ key ++ "=\"" ++ encode value ++ "\""

/-- The content of a tag. -/
def content (t : Tag) : List Char :=
  (t.attributes.foldl (fun s (key, value) => s ++ attributeText key value) t.name).toList

end Tag

end Cosim.Xml
