import Cosim.Xml.Layout
import Cosim.Xml.Tag
import Cosim.Xml.Tree

/-!
# Writing trees

The markup of a tree, and its text: a declaration, the indented markup and a line end.
-/

namespace Cosim.Xml

mutual

/-- The markup of a child in document order. -/
def Node.markup : Node → List Markup
  | .element name attributes children =>
    let content := Tag.content ⟨name, attributes⟩
    if children.isEmpty then [.empty content]
    else .start content :: Node.markups children ++ [.close name.toList]
  | .text s => [.text (encode s).toList]
  | .comment s => [.comment s.toList]

def Node.markups : List Node → List Markup
  | [] => []
  | node :: nodes => node.markup ++ Node.markups nodes

end

/-- The declaration at the head of every document. -/
def declarationMarkup : Markup := .instruction "xml version=\"1.0\" encoding=\"UTF-8\"".toList

/-- The text of a document. -/
def Element.render (e : Element) : String :=
  Markup.layOut (declarationMarkup :: (Node.ofElement e).markup) ++ "\n"

end Cosim.Xml
