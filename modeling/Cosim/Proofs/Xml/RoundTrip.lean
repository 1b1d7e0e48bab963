import Cosim.Proofs.Xml.Scan
import Cosim.Proofs.Xml.Tidy
import Cosim.Xml.Build
import Cosim.Xml.Render

/-!
# Written trees

A tree that is written and read again comes back in its tidy form: names, attributes, comments,
the order of the children and the text between them are kept, whatever lines and indents the
writing adds.  A tidy tree comes back as it was.
-/

namespace Cosim.Xml

open Markup (Scans readBehind textPieces)

/-! ## The scan of a written tree -/

/-- The markup of well-formed nodes is scanned back before what follows it. -/
theorem Node.scans_markups {nodes : List Node} (hnodes : ∀ node ∈ nodes, node.WellFormed) :
  ∀ {opened : List (List Char)} {pieces : List Markup}, Scans opened pieces →
    Scans opened (Node.markups nodes ++ pieces)
  := by
  induction nodes using forestInduction with
  | nil =>
    intro opened pieces h
    apply h
  | element name attributes children nodes ihchildren ih =>
    intro opened pieces h
    rw [List.forall_mem_cons] at hnodes
    obtain ⟨⟨htag, hchildren⟩, hnodes⟩ := hnodes
    rw [markups, markup, List.append_assoc]
    have hrest := ih hnodes h
    cases hempty : children.isEmpty with
    | true =>
      apply Markup.scans_empty htag.toNamed hrest
    | false =>
      simp only [Bool.false_eq_true, if_false, List.cons_append, List.append_assoc,
        List.nil_append]
      apply Markup.scans_start htag.toNamed
      apply ihchildren hchildren
      apply Markup.scans_close htag.name hrest
  | text s nodes ih =>
    intro opened pieces h
    rw [List.forall_mem_cons] at hnodes
    rw [markups, markup, List.append_assoc]
    apply Markup.scans_text _ (ih hnodes.2 h)
    rw [toList_encode]
    apply not_mem_encoded (by decide) (by decide)
  | comment s nodes ih =>
    intro opened pieces h
    rw [List.forall_mem_cons] at hnodes
    obtain ⟨hcomment, hnodes⟩ := hnodes
    cases hcomment with
    | comment hend =>
      rw [markups, markup, List.append_assoc]
      apply Markup.scans_comment hend (ih hnodes h)

/-! ## Building a tree from scanned pieces -/

namespace Building

/-- Adds children to the innermost open element. -/
def addAll (b : Building) (nodes : List Node) : Building := nodes.foldl add b

/-- Nodes are added one after the other. -/
theorem addAll_append (b : Building) (nodes nodes' : List Node) :
  b.addAll (nodes ++ nodes') = (b.addAll nodes).addAll nodes'
  := List.foldl_append

theorem addAll_cons (b : Building) (node : Node) (nodes : List Node) :
  b.addAll (node :: nodes) = (b.add node).addAll nodes
  := rfl

/-- The element last opened takes the children, in reverse. -/
theorem addAll_opened (e : Element) (outer : List Element) (root : Option Element)
    (nodes : List Node) :
  addAll ⟨e :: outer, root⟩ nodes =
    ⟨{ e with children := nodes.reverse ++ e.children } :: outer, root⟩
  := by
  induction nodes generalizing e with
  | nil => rfl
  | cons node nodes ih =>
    rw [addAll_cons, add, ih, List.reverse_cons, List.append_assoc, List.singleton_append]

/-- An element stays open while nodes are added. -/
theorem opened_addAll_ne_nil {b : Building} (h : b.opened ≠ []) (nodes : List Node) :
  (b.addAll nodes).opened ≠ []
  := by
  obtain ⟨opened, root⟩ := b
  obtain ⟨e, outer, rfl⟩ := List.exists_cons_of_ne_nil h
  rw [addAll_opened]
  apply List.cons_ne_nil

/-- An element stays open when a node is added. -/
theorem opened_add_ne_nil {b : Building} (h : b.opened ≠ []) (node : Node) :
  (b.add node).opened ≠ []
  := opened_addAll_ne_nil h [node]

/-- Inside an element a finished element is one more child. -/
theorem attach_of_opened {b : Building} (h : b.opened ≠ []) (e : Element) :
  b.attach e = .ok (b.add (.ofElement e))
  := by
  obtain ⟨opened, root⟩ := b
  obtain ⟨outer, opened, rfl⟩ := List.exists_cons_of_ne_nil h
  rfl

/-- A text between two marks is added without the white space at its ends. -/
theorem foldlM_textPieces {b : Building} (h : b.opened ≠ []) (s : String) :
  (textPieces (s.toList.flatMap encodeChar)).foldlM step b = .ok (b.addAll (Node.textNodes s))
  := by
  have hopened : ¬ b.opened.isEmpty = true := by
    rw [List.isEmpty_iff]
    apply h
  rw [textPieces, trimSpace_encoded, Node.textNodes, Node.trimmed?]
  cases htrim : trimSpace s.toList with
  | nil => rfl
  | cons c cs =>
    rw [if_neg (encoded_ne_nil (List.cons_ne_nil c cs)), if_neg (List.cons_ne_nil c cs), List.foldlM_cons, step, if_neg hopened,
      decodeList?_encoded]
    rfl

/-- What is read at the next mark is the text in front of it. -/
theorem foldlM_readBehind_cons {b : Building} (h : b.opened ≠ []) (s : String) {piece : Markup}
    (htext : ∀ s, piece ≠ .text s) (pieces : List Markup) :
  (readBehind (s.toList.flatMap encodeChar) (piece :: pieces)).foldlM step b =
    (piece :: readBehind [] pieces).foldlM step (b.addAll (Node.textNodes s))
  := by
  rw [Markup.readBehind_cons htext, List.foldlM_append, foldlM_textPieces h]
  rfl

/-- A tidy text is added before the markup behind it. -/
theorem addAll_tidy_cons {node : Node} (hnode : node.IsMarkup) (b : Building) (s : String)
    (nodes : List Node) :
  b.addAll (Node.tidy (.text s :: node :: nodes)) =
    ((b.addAll (Node.textNodes s)).add node).addAll (Node.tidy (.text "" :: nodes))
  := by
  rw [Node.tidy_text_cons hnode, addAll_append, addAll_cons, Node.tidy_empty_text]

/-- The markup of children adds their tidy form, the first text joined with what stands in front
of it. -/
theorem foldlM_readBehind {nodes : List Node} (hnodes : ∀ node ∈ nodes, node.WellFormed) :
  ∀ (s : String) {b : Building} {piece : Markup} (pieces : List Markup), b.opened ≠ [] →
    (∀ s, piece ≠ .text s) →
    (readBehind (s.toList.flatMap encodeChar) (Node.markups nodes ++ piece :: pieces)).foldlM step b =
      (piece :: readBehind [] pieces).foldlM step
        (b.addAll (Node.tidy (.text s :: Node.normAll nodes)))
  := by
  induction nodes using Node.forestInduction with
  | nil =>
    intro s b piece pieces hb hpiece
    rw [Node.markups, List.nil_append, foldlM_readBehind_cons hb s hpiece, Node.normAll,
      Node.tidy_text]
  | element name attributes children nodes ihchildren ih =>
    intro s b piece pieces hb hpiece
    rw [List.forall_mem_cons] at hnodes
    obtain ⟨⟨htag, hchildren⟩, hnodes⟩ := hnodes
    have hbefore := opened_addAll_ne_nil hb (Node.textNodes s)
    rw [Node.markups, Node.markup, Node.normAll, Node.norm, addAll_tidy_cons (by trivial),
      List.append_assoc]
    cases hempty : children.isEmpty with
    | true =>
      obtain rfl := List.isEmpty_iff.mp hempty
      have hstep : step (b.addAll (Node.textNodes s)) (.empty (Tag.content ⟨name, attributes⟩)) =
          .ok ((b.addAll (Node.textNodes s)).add (.element name attributes [])) := by
        rw [step, Tag.ofContent?_content htag]
        apply attach_of_opened hbefore
      simp only [if_true, List.singleton_append]
      rw [foldlM_readBehind_cons hb s (by rintro s ⟨⟩), List.foldlM_cons, hstep]
      apply ih hnodes "" pieces (opened_add_ne_nil hbefore _) hpiece
    | false =>
      have hopen : step (b.addAll (Node.textNodes s)) (.start (Tag.content ⟨name, attributes⟩)) =
          .ok ⟨⟨name, attributes, []⟩ :: (b.addAll (Node.textNodes s)).opened,
            (b.addAll (Node.textNodes s)).root⟩ := by
        rw [step, Tag.ofContent?_content htag]
      simp only [Bool.false_eq_true, if_false, List.cons_append, List.append_assoc,
        List.nil_append]
      rw [foldlM_readBehind_cons hb s (by rintro s ⟨⟩), List.foldlM_cons, hopen]
      have hclose (s : List Char) : Markup.close name.toList ≠ .text s := by rintro ⟨⟩
      apply (ihchildren hchildren "" _ (List.cons_ne_nil _ _) hclose).trans
      rw [Node.tidy_empty_text, addAll_opened, List.foldlM_cons, step]
      simp only [List.append_nil, List.reverse_reverse]
      rw [attach_of_opened hbefore]
      apply ih hnodes "" pieces (opened_add_ne_nil hbefore _) hpiece
  | text s' nodes ih =>
    intro s b piece pieces hb hpiece
    rw [List.forall_mem_cons] at hnodes
    have hread : (s ++ s').toList.flatMap encodeChar =
        s.toList.flatMap encodeChar ++ (encode s').toList := by
      rw [toList_encode, String.toList_append, List.flatMap_append]
    rw [Node.markups, Node.markup, Node.normAll, Node.norm, Node.tidy_text_text,
      ← ih hnodes.2 _ _ hb hpiece, hread]
    rfl
  | comment s' nodes ih =>
    intro s b piece pieces hb hpiece
    rw [List.forall_mem_cons] at hnodes
    have hbefore := opened_addAll_ne_nil hb (Node.textNodes s)
    rw [Node.markups, Node.markup, Node.normAll, Node.norm, addAll_tidy_cons (by trivial),
      List.append_assoc, List.singleton_append, foldlM_readBehind_cons hb s (by rintro s ⟨⟩),
      List.foldlM_cons, step, String.ofList_toList]
    apply ih hnodes.2 "" pieces (opened_add_ne_nil hbefore _) hpiece

end Building

/-! ## Whole trees -/

/-- A last text is written as it is. -/
theorem writeAll_append_text (l : Layout) (pieces : List Markup) (s : List Char) :
  l.writeAll (pieces ++ [.text s]) = l.writeAll pieces ++ s
  := by
  induction pieces generalizing l with
  | nil =>
    apply List.append_nil
  | cons piece pieces ih =>
    rw [List.cons_append, Markup.writeAll_cons, Markup.writeAll_cons, ih, List.append_assoc]

/-- An element is written as a declaration, its markup and a line break. -/
theorem toList_render (e : Element) :
  e.render.toList =
    Layout.initial.writeAll (declarationMarkup :: ((Node.ofElement e).markup ++ [.text ['\n']]))
  := by
  rw [Element.render, Markup.layOut, String.toList_append, String.toList_ofList,
    ← List.cons_append, writeAll_append_text]
  rfl

/-- The pieces of a written tree, with the line end behind it. -/
theorem scan_render {e : Element} (he : e.WellFormed) :
  Markup.scan e.render =
    ⟨declarationMarkup :: readBehind [] ((Node.ofElement e).markup ++ [.text ['\n']]), false⟩
  := by
  have hbehind : Scans [] [.text ['\n']] := Markup.scans_text (by decide) (Markup.scans_nil [])
  have htree := Node.scans_markups (List.forall_mem_singleton.mpr he) hbehind
  have hscans := Markup.scans_instruction (s := "xml version=\"1.0\" encoding=\"UTF-8\"".toList)
    (List.cons_ne_nil _ _) (by decide +kernel) htree Layout.initial [] List.not_mem_nil
  rw [Node.markups, Node.markups, List.append_nil, List.nil_append] at hscans
  rw [Markup.scan_of_toList (toList_render e)]
  apply hscans

theorem textPieces_nil :
  textPieces [] = []
  := rfl

namespace Element

/-- The outermost element is taken in like any other, and kept. -/
theorem foldlM_markup {e : Element} (he : e.WellFormed) :
  (readBehind [] ((Node.ofElement e).markup ++ [.text ['\n']])).foldlM Building.step
      Building.initial =
    .ok ⟨[], some e.norm⟩
  := by
  obtain ⟨name, attributes, children⟩ := e
  cases he with
  | element htag hchildren =>
    have hend : readBehind [] [.text ['\n']] = [] := rfl
    rw [Node.ofElement, Node.markup]
    cases hempty : children.isEmpty with
    | true =>
      obtain rfl := List.isEmpty_iff.mp hempty
      simp only [if_true, List.singleton_append]
      rw [Markup.readBehind_cons (by rintro s ⟨⟩), hend, textPieces_nil, List.nil_append,
        List.foldlM_cons, Building.step, Tag.ofContent?_content htag]
      rfl
    | false =>
      simp only [Bool.false_eq_true, if_false, List.cons_append, List.append_assoc,
        List.nil_append]
      rw [Markup.readBehind_cons (by rintro s ⟨⟩), textPieces_nil, List.nil_append,
        List.foldlM_cons, Building.step, Tag.ofContent?_content htag]
      have hclose (s : List Char) : Markup.close name.toList ≠ .text s := by rintro ⟨⟩
      apply (Building.foldlM_readBehind hchildren "" _ (List.cons_ne_nil _ _) hclose).trans
      rw [Node.tidy_empty_text, Building.addAll_opened, hend, List.foldlM_cons, Building.step]
      simp only [List.append_nil, List.reverse_reverse]
      rfl

/-- A written tree is read in its tidy form. -/
theorem parse_render_eq {e : Element} (he : e.WellFormed) :
  parse e.render = .ok e.norm
  := by
  have hfold : (Markup.scan e.render).pieces.foldlM Building.step Building.initial =
      .ok ⟨[], some e.norm⟩ := by
    rw [scan_render he]
    apply foldlM_markup he
  rw [parse, ofScan, hfold, scan_render he]
  rfl

/-- A written tree is read in its tidy form, a tidy tree as it was, and writing and reading once
more changes nothing. -/
theorem parse_render {e : Element} (he : e.WellFormed) :
  parse e.render = .ok e.norm ∧
  (e.norm = e → parse e.render = .ok e) ∧
  parse e.norm.render = .ok e.norm
  := by
  refine ⟨parse_render_eq he, fun htidy => ?_, ?_⟩
  · rw [parse_render_eq he, htidy]
  · rw [parse_render_eq he.norm, norm_norm]

/-- A tree with a comment between two texts, a line that is only white space and marks in a
value. -/
def sampleTree : Element :=
  ⟨"a", [("b", "<\"&")], [.text " x", .text "y\n", .comment "-", .text "\t",
    .element "c" [] [.text ""], .element "d" [] []]⟩

/-- The sample tree is well formed. -/
theorem wellFormed_sampleTree :
  sampleTree.WellFormed
  := by
  have hname {c : Char} (h : Document.isNameStart c = true) : IsName [c] :=
    ⟨c, [], rfl, h, List.forall_mem_nil _⟩
  have hleaf {c : Char} (h : Document.isNameStart c = true) :
      Tag.WellFormed ⟨String.ofList [c], []⟩ :=
    ⟨⟨by simpa using hname h, List.forall_mem_nil _⟩, List.nodup_nil⟩
  have hroot : Tag.WellFormed ⟨"a", [("b", "<\"&")]⟩ :=
    ⟨⟨hname (by decide), List.forall_mem_singleton.mpr (hname (by decide))⟩,
      List.nodup_singleton _⟩
  refine .element hroot (List.forall_mem_cons.mpr ⟨.text _, List.forall_mem_cons.mpr ⟨.text _,
    List.forall_mem_cons.mpr ⟨.comment (by decide), List.forall_mem_cons.mpr ⟨.text _,
    List.forall_mem_cons.mpr ⟨.element (hleaf (c := 'c') (by decide)) ?_,
    List.forall_mem_singleton.mpr (.element (hleaf (c := 'd') (by decide)) ?_)⟩⟩⟩⟩⟩)
  · exact List.forall_mem_singleton.mpr (.text _)
  · exact List.forall_mem_nil _

/-- Texts of the sample tree are trimmed and joined by writing and reading. -/
theorem parse_render_sampleTree :
  sampleTree.WellFormed ∧
  parse sampleTree.render = .ok ⟨"a", [("b", "<\"&")], [.text "xy", .comment "-",
    .element "c" [] [], .element "d" [] []]⟩
  := by
  refine ⟨wellFormed_sampleTree, (parse_render wellFormed_sampleTree).1.trans ?_⟩
  rfl

end Element

end Cosim.Xml
