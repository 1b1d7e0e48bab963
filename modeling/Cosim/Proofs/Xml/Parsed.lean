import Cosim.Proofs.Xml.Scan
import Cosim.Proofs.Xml.Tidy
import Cosim.Xml.Build

/-!
# Parsed trees

Whatever text a tree is read from, no key occurs twice in one of its tags, and no comment in it
contains the end of a comment.  Only names are not checked: a parsed tree is well-formed as soon as
its names are names of XML.
-/

namespace Cosim

/-! ## Texts before marks -/

namespace Text

variable {mark front cs : List Char} {left : Left cs}

/-- What is before a mark is the front of the text. -/
theorem prefix_of_beforeMark? (h : beforeMark? mark cs = some (front, left)) :
  front <+: cs
  := by
  induction cs generalizing front with
  | nil =>
    rw [beforeMark?] at h
    split at h
    · cases h
      apply List.prefix_rfl
    · cases h
  | cons c cs ih =>
    rw [beforeMark?] at h
    split at h
    · cases h
      apply List.nil_prefix
    · obtain ⟨⟨front', left'⟩, hfound, heq⟩ := Option.map_eq_some_iff.mp h
      cases heq
      exact List.prefix_cons_inj c |>.mpr (ih hfound)

/-- In front of its first occurrence a mark does not occur. -/
theorem not_infix_of_beforeMark? (hmark : mark ≠ [])
    (h : beforeMark? mark cs = some (front, left)) :
  ¬ mark <:+: front
  := by
  induction cs generalizing front with
  | nil =>
    rw [beforeMark?, if_neg (by simpa using hmark)] at h
    cases h
  | cons c cs ih =>
    rw [beforeMark?] at h
    split at h
    · cases h
      rwa [List.infix_nil]
    · rename_i hnot
      obtain ⟨⟨front', left'⟩, hfound, heq⟩ := Option.map_eq_some_iff.mp h
      cases heq
      rw [List.infix_cons_iff, not_or]
      refine ⟨fun hprefix => ?_, ih hfound⟩
      apply hnot
      rw [List.isPrefixOf_iff_prefix]
      exact hprefix.trans ((List.prefix_cons_inj c).mpr (prefix_of_beforeMark? hfound))

end Text

namespace Xml

/-! ## Scanned comments -/

namespace Markup

/-- A piece that is no comment with the end of a comment in it. -/
def IsClosed : Markup → Prop
  | .comment s => ¬ "-->".toList <:+: s
  | _ => True

/-- A comment that is read does not hold its end. -/
theorem isClosed_of_declaration {cs : List Char} {piece : Markup} {rest : Text.Rest cs}
    (h : declaration cs = .found piece rest) :
  piece.IsClosed
  := by
  unfold declaration at h
  split at h
  · rename_i body
    cases hfound : Text.beforeMark? "-->".toList body with
    | none =>
      rw [hfound] at h
      cases h
    | some found =>
      rw [hfound] at h
      cases h
      exact Text.not_infix_of_beforeMark? (by decide) hfound
  · split at h
    · unfold Next.ofOption at h
      split at h
      · cases h
        trivial
      · cases h
    · split at h
      · split at h
        · dsimp only at h
          split at h
          · cases h
            trivial
          · cases h
        · cases h
      · cases h
  · cases h

/-- What is read as a tag is no comment that holds its end. -/
theorem isClosed_of_tag {cs : List Char} {piece : Markup} {rest : Text.Rest cs}
    (h : tag cs = .found piece rest) :
  piece.IsClosed
  := by
  unfold tag at h
  split at h
  · cases h
  · split at h
    · rename_i hdeclaration
      cases h
      exact isClosed_of_declaration hdeclaration
    · cases h
  · cases h
    trivial
  · dsimp only at h
    split at h
    · cases h
    · cases h
      trivial
  · split at h
    · split at h
      · cases h
        split <;> trivial
      · cases h
    · cases h

/-- The next piece is no comment that holds its end. -/
theorem isClosed_of_next {cs : List Char} {piece : Markup} {rest : Text.Rest cs}
    (h : next cs = .found piece rest) :
  piece.IsClosed
  := by
  unfold next at h
  split at h
  · cases h
  · split at h
    · rename_i htag
      cases h
      exact isClosed_of_tag htag
    · cases h
    · cases h
  · cases h
    trivial

/-- No scanned piece is a comment that holds its end. -/
theorem isClosed_of_scanFrom (opened : List (List Char)) (cs : List Char) :
  ∀ piece ∈ (scanFrom opened cs).pieces, piece.IsClosed
  := by
  induction opened, cs using scanFrom.induct with
  | case1 opened cs hdone =>
    rw [scanFrom_eq, hdone]
    exact List.forall_mem_nil _
  | case2 opened cs hmalformed =>
    rw [scanFrom_eq, hmalformed]
    exact List.forall_mem_nil _
  | case3 opened cs piece rest hnext hafter =>
    rw [scanFrom_eq, hnext, Scan.ofNext, hafter]
    exact List.forall_mem_nil _
  | case4 opened cs piece rest hnext after hafter ih =>
    rw [scanFrom_eq, hnext, Scan.ofNext, hafter]
    exact List.forall_mem_cons.mpr ⟨isClosed_of_next hnext, ih⟩

end Markup

/-! ## Trees built from scanned pieces -/

namespace Node

/-- A child as it is parsed: no key occurs twice in a tag, and no comment contains the end of a
comment. -/
inductive Parsed : Node → Prop where
  | element {name : String} {attributes : List (String × String)} {children : List Node}
    (hkeys : (attributes.map Prod.fst).Nodup) (hchildren : ∀ node ∈ children, Parsed node) :
    Parsed (.element name attributes children)
  | text (s : String) : Parsed (.text s)
  | comment {s : String} (hend : ¬ "-->".toList <:+: s.toList) : Parsed (.comment s)

/-- A child in which all tags have names of XML. -/
inductive Named : Node → Prop where
  | element {name : String} {attributes : List (String × String)} {children : List Node}
    (htag : Tag.Named ⟨name, attributes⟩) (hchildren : ∀ node ∈ children, Named node) :
    Named (.element name attributes children)
  | text (s : String) : Named (.text s)
  | comment (s : String) : Named (.comment s)

/-- Parsed nodes with names of XML are well formed. -/
theorem wellFormed_of_parsed {nodes : List Node} (hparsed : ∀ node ∈ nodes, node.Parsed)
    (hnamed : ∀ node ∈ nodes, node.Named) :
  ∀ node ∈ nodes, node.WellFormed
  := by
  induction nodes using forestInduction with
  | nil => exact List.forall_mem_nil _
  | element name attributes children nodes ihchildren ih =>
    rw [List.forall_mem_cons] at hparsed hnamed ⊢
    obtain ⟨⟨hkeys, hparsed⟩, hmore⟩ := hparsed
    obtain ⟨⟨htag, hnamed⟩, hmore'⟩ := hnamed
    exact ⟨.element ⟨htag, hkeys⟩ (ihchildren hparsed hnamed), ih hmore hmore'⟩
  | text s nodes ih =>
    rw [List.forall_mem_cons] at hparsed hnamed ⊢
    exact ⟨.text s, ih hparsed.2 hnamed.2⟩
  | comment s nodes ih =>
    rw [List.forall_mem_cons] at hparsed hnamed ⊢
    obtain ⟨hcomment, hmore⟩ := hparsed
    cases hcomment with
    | comment hend => exact ⟨.comment hend, ih hmore hnamed.2⟩

end Node

/-- No key occurs twice in a tag that is read. -/
theorem Tag.nodup_of_ofContent? {content : List Char} {t : Tag} (h : ofContent? content = some t) :
  (t.attributes.map Prod.fst).Nodup
  := by
  simp only [ofContent?, Option.bind_eq_bind, Option.bind_eq_some_iff] at h
  obtain ⟨attributes, -, h⟩ := h
  split at h
  · rename_i hnodup
    cases h
    exact hnodup
  · cases h

namespace Building

/-- A building of which all elements, open or closed, are as they are parsed. -/
structure Parsed (b : Building) : Prop where
  opened : ∀ e ∈ b.opened, (Node.ofElement e).Parsed
  root : ∀ e ∈ b.root, (Node.ofElement e).Parsed

variable {b b' : Building}

/-- A building stays parsed when a parsed child is added. -/
theorem Parsed.add {node : Node} (h : b.Parsed) (hnode : node.Parsed) :
  (b.add node).Parsed
  := by
  obtain ⟨hopened, hroot⟩ := h
  unfold Building.add
  split
  · exact ⟨hopened, hroot⟩
  · rename_i e outer heq
    rw [heq, List.forall_mem_cons] at hopened
    obtain ⟨⟨hkeys, hchildren⟩, houter⟩ := hopened
    refine ⟨List.forall_mem_cons.mpr ⟨.element hkeys ?_, houter⟩, hroot⟩
    exact List.forall_mem_cons.mpr ⟨hnode, hchildren⟩

/-- A building stays parsed when a parsed element is closed. -/
theorem Parsed.attach {e : Element} (h : b.Parsed) (he : (Node.ofElement e).Parsed)
    (hattach : b.attach e = .ok b') :
  b'.Parsed
  := by
  unfold Building.attach at hattach
  split at hattach
  · cases hattach
    refine ⟨h.opened, ?_⟩
    rintro _ ⟨⟩
    exact he
  · cases hattach
  · cases hattach
    exact h.add he

/-- A building stays parsed when a piece is taken in. -/
theorem Parsed.step {piece : Markup} (h : b.Parsed) (hpiece : piece.IsClosed)
    (hstep : b.step piece = .ok b') :
  b'.Parsed
  := by
  cases piece with
  | start content =>
    rw [Building.step] at hstep
    cases htag : Tag.ofContent? content with
    | none =>
      rw [htag] at hstep
      cases hstep
    | some tag =>
      rw [htag] at hstep
      cases hstep
      refine ⟨List.forall_mem_cons.mpr ⟨?_, h.opened⟩, h.root⟩
      exact .element (Tag.nodup_of_ofContent? htag) (List.forall_mem_nil _)
  | empty content =>
    rw [Building.step] at hstep
    cases htag : Tag.ofContent? content with
    | none =>
      rw [htag] at hstep
      cases hstep
    | some tag =>
      rw [htag] at hstep
      exact h.attach (.element (Tag.nodup_of_ofContent? htag) (List.forall_mem_nil _)) hstep
  | close name =>
    obtain ⟨opened, root⟩ := b
    cases opened with
    | nil => cases hstep
    | cons e outer =>
      obtain ⟨hopened, hroot⟩ := h
      rw [List.forall_mem_cons] at hopened
      obtain ⟨⟨hkeys, hchildren⟩, houter⟩ := hopened
      have hbehind : Parsed ⟨outer, root⟩ := ⟨houter, hroot⟩
      have hclosed : (Node.ofElement { e with children := e.children.reverse }).Parsed :=
        .element hkeys fun node hnode => hchildren node (List.mem_reverse.mp hnode)
      exact hbehind.attach hclosed hstep
  | text content =>
    rw [Building.step] at hstep
    split at hstep
    · cases hstep
      exact h
    · split at hstep
      · cases hstep
        exact h.add (.text _)
      · cases hstep
  | verbatim content =>
    cases hstep
    exact h.add (.text _)
  | comment content =>
    cases hstep
    have hcontent : (String.ofList content).toList = content := String.toList_ofList
    have hend : ¬ "-->".toList <:+: (String.ofList content).toList := by
      rw [hcontent]
      exact hpiece
    exact h.add (.comment hend)
  | instruction content =>
    cases hstep
    exact h
  | doctype content =>
    cases hstep
    exact h

/-- A building stays parsed when pieces are taken in one after the other. -/
theorem Parsed.foldlM {pieces : List Markup} (h : b.Parsed)
    (hpieces : ∀ piece ∈ pieces, piece.IsClosed)
    (hfold : pieces.foldlM Building.step b = .ok b') :
  b'.Parsed
  := by
  induction pieces generalizing b with
  | nil =>
    cases hfold
    exact h
  | cons piece pieces ih =>
    rw [List.forall_mem_cons] at hpieces
    rw [List.foldlM_cons] at hfold
    cases hstep : b.step piece with
    | error e =>
      rw [hstep] at hfold
      cases hfold
    | ok b₁ =>
      rw [hstep] at hfold
      exact ih (h.step hpieces.1 hstep) hpieces.2 hfold

end Building

namespace Element

/-- What is parsed from a text is a parsed element. -/
theorem parsed_of_parse {text : String} {e : Element} (h : parse text = .ok e) :
  (Node.ofElement e).Parsed
  := by
  rw [parse, ofScan] at h
  cases hfold : (Markup.scan text).pieces.foldlM Building.step Building.initial with
  | error u =>
    rw [hfold] at h
    cases h
  | ok b =>
    rw [hfold] at h
    have hinitial : Building.initial.Parsed := ⟨List.forall_mem_nil _, by rintro _ ⟨⟩⟩
    obtain ⟨-, hroot⟩ := hinitial.foldlM (Markup.isClosed_of_scanFrom [] _) hfold
    cases hmalformed : (Markup.scan text).malformed with
    | true =>
      rw [hmalformed] at h
      cases h
    | false =>
      rw [hmalformed] at h
      obtain ⟨opened, root⟩ := b
      cases opened with
      | cons e outer => cases h
      | nil =>
        cases root with
        | none => cases h
        | some root =>
          cases h
          exact hroot _ rfl

/-- A parsed tree with names of XML can be written. -/
theorem wellFormed_of_parse {text : String} {e : Element} (h : parse text = .ok e)
    (hnamed : (Node.ofElement e).Named) :
  e.WellFormed
  := by
  have hparsed : ∀ node ∈ [Node.ofElement e], node.Parsed :=
    List.forall_mem_singleton.mpr (parsed_of_parse h)
  have hwhole := Node.wellFormed_of_parsed hparsed (List.forall_mem_singleton.mpr hnamed)
  exact hwhole _ List.mem_cons_self

end Element

end Xml

end Cosim
