import Cosim.Xml.Render

/-!
# Writing documents

A document is written after a declaration, either in one line or indented.  The line is read
again to be indented: its texts are trimmed then, and elements without content get a single tag.
-/

namespace Cosim.Document

open Xml (Element Node Markup Layout)

/-- The first line of every document. -/
def heading : String := "<?xml version=\"1.0\" encoding=\"UTF-8\"?>\n"

/-- The text of an element in one line. -/
def line (e : Element) : String :=
  String.ofList ((Node.ofElement e).markup.flatMap fun m => (Layout.initial.write m).1)

/-- The text of a document in one line. -/
def flat (e : Element) : String := heading ++ line e ++ "\n"

/-- Joins start tags with end tags right behind them. -/
def joinTags : List Markup → List Markup
  | .start content :: .close _ :: ms => .empty content :: joinTags ms
  | m :: ms => m :: joinTags ms
  | [] => []

/-- Lays out a text that is not malformed anew. -/
def indent (text : String) : String := Markup.layOut (joinTags (Markup.scan text).pieces)

/-- The indented text of a document. -/
def pretty (e : Element) : String := heading ++ indent (line e) ++ "\n"

end Cosim.Document
