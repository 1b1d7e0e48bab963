import Cosim.Xml.Markup

/-!
# Layout of markup

Writing pieces of markup one after another.  Every tag, comment and instruction starts a line of
its own, indented by four spaces for every open tag, unless a text stands right before it.
-/

namespace Cosim.Xml

/-- What writing the next piece depends on. -/
structure Layout where
  /-- the number of open tags -/
  depth : Nat
  /-- whether the next tag starts a new line -/
  breaks : Bool

namespace Layout

/-- Before the first piece there is no line to end. -/
def initial : Layout := ⟨0, false⟩

/-- What stands before a piece other than a text. -/
def lead (l : Layout) : List Char :=
  if l.breaks then '\n' :: List.replicate (4 * l.depth) ' ' else []

/-- Writes one piece, and tells the layout behind it. -/
def write (l : Layout) : Markup → List Char × Layout
  | .start content => (l.lead ++ '<' :: content ++ ['>'], ⟨l.depth + 1, true⟩)
  | .empty content => (l.lead ++ '<' :: content ++ ['/', '>'], ⟨l.depth, true⟩)
  | .close name =>
    let outer : Layout := ⟨l.depth - 1, l.breaks⟩
    (outer.lead ++ '<' :: '/' :: name ++ ['>'], ⟨outer.depth, true⟩)
  | .text content => (content, ⟨l.depth, false⟩)
  | .verbatim content => ("<![CDATA[".toList ++ content ++ "]]>".toList, ⟨l.depth, false⟩)
  | .comment content =>
    (l.lead ++ "<!--".toList ++ content ++ "-->".toList, ⟨l.depth, true⟩)
  | .instruction content =>
    (l.lead ++ '<' :: '?' :: content ++ ['?', '>'], ⟨l.depth, true⟩)
  | .doctype content =>
    (l.lead ++ "<!DOCTYPE ".toList ++ content ++ ['>'], ⟨l.depth, true⟩)

/-- Writes pieces one after another. -/
def writeAll (l : Layout) : List Markup → List Char
  | [] => []
  | piece :: pieces =>
    let (text, after) := l.write piece
    text ++ after.writeAll pieces

end Layout

/-- The indented text of a sequence of pieces. -/
def Markup.layOut (pieces : List Markup) : String :=
  String.ofList (Layout.initial.writeAll pieces)

end Cosim.Xml
