import Cosim.Document.Field
import Cosim.Document.Form
import Cosim.Document.Writing
import Cosim.Proofs.Document.Token

/-!
# Reading written elements

`Listed known es` says that the elements `es` can stand side by side where the names of a form are
known, and `Laid` says how they may be laid out in a text.  Elements that are laid out are read by
the form as they were, whatever lines and indents stand between their tags.
-/

namespace Cosim.Document

open Text (Rest)
open Xml (Element Node Tag encodeChar isSpace trimSpace)
open Token (IsWritable writtenAttribute tagEnd)

/-- An encoded text is read back. -/
theorem decode?_encoded (cs : List Char) :
  decode? (cs.flatMap encodeChar) = some cs
  := by
  apply Xml.resolve?_encoded
  intro name c h
  unfold reference?
  split
  · cases h
  · cases h
  · apply h

namespace Form

/-! ## Reading from tokens -/

/-- Written attributes are read back. -/
theorem attributes?_written (attributes : List (String × String)) :
  Form.attributes? (attributes.map writtenAttribute) = some attributes
  := by
  induction attributes with
  | nil => rfl
  | cons a attributes ih =>
    obtain ⟨key, value⟩ := a
    rw [Form.attributes?] at ih ⊢
    rw [List.map_cons, List.mapM_cons, ih, writtenAttribute, decode?_encoded]
    simp

/-- What is read of the tokens up to the end of an element, and the tokens behind. -/
def readFrom (known : List (String × Form)) (own : String) (ts : List Token) :
    Option (List Element × List Token) :=
  (readChildren? known own ts).map fun (es, rest) => (es, rest.val)

variable {known inner : List (String × Form)} {own name : String} {ts behind : List Token}
  {es children : List Element}

/-- The end tag of an element ends its children. -/
theorem readFrom_close (own : String) (ts : List Token) :
  readFrom known own (.close own :: ts) = some ([], ts)
  := by
  rw [readFrom, readChildren?, if_pos (beq_self_eq_true _)]
  rfl

/-- A text between elements is left out. -/
theorem readFrom_text (content : List Char) (h : readFrom known own ts = some (es, behind)) :
  readFrom known own (.text content :: ts) = some (es, behind)
  := by
  rw [← h, readFrom, readFrom, readChildren?]
  · cases readChildren? known own ts with
    | none => rfl
    | some read => rfl
  all_goals
    intros
    contradiction

/-- An empty element that is known is read before the others. -/
theorem readFrom_empty (attributes : List (String × String))
    (hknown : known.lookup name = some (.children inner))
    (h : readFrom known own ts = some (es, behind)) :
  readFrom known own (.empty name (attributes.map writtenAttribute) :: ts) =
    some (⟨name, attributes, []⟩ :: es, behind)
  := by
  obtain ⟨⟨read, rest⟩, hread, heq⟩ := Option.map_eq_some_iff.mp h
  obtain ⟨rfl, rfl⟩ := Prod.mk.inj heq
  rw [readFrom, readChildren?, hknown]
  simp [bare?, attributes?_written, hread, Rest.cons]

/-- An element with a text is read before the others. -/
theorem readFrom_textual (written : List Attribute) (s : String)
    (hknown : known.lookup name = some .text)
    (h : readFrom known own ts = some (es, behind)) :
  readFrom known own (.start name written :: .text (s.toList.flatMap encodeChar) ::
      .close name :: ts) =
    some (textElement name s :: es, behind)
  := by
  obtain ⟨⟨read, rest⟩, hread, heq⟩ := Option.map_eq_some_iff.mp h
  obtain ⟨rfl, rfl⟩ := Prod.mk.inj heq
  rw [readFrom, readChildren?, hknown]
  simp [readText?, decode?_encoded, hread, Rest.cons, Rest.trans, textual, textElement]

/-- An element whose children are read is read before the others. -/
theorem readFrom_element (attributes : List (String × String))
    (hknown : known.lookup name = some (.children inner))
    {ts' : List Token} (hinner : readFrom inner name ts' = some (children, ts))
    (h : readFrom known own ts = some (es, behind)) :
  readFrom known own (.start name (attributes.map writtenAttribute) :: ts') =
    some (⟨name, attributes, children.map Node.ofElement⟩ :: es, behind)
  := by
  obtain ⟨⟨read, rest⟩, hread, heq⟩ := Option.map_eq_some_iff.mp hinner
  obtain ⟨rfl, rfl⟩ := Prod.mk.inj heq
  obtain ⟨⟨read', rest'⟩, hread', heq'⟩ := Option.map_eq_some_iff.mp h
  obtain ⟨rfl, rfl⟩ := Prod.mk.inj heq'
  rw [readFrom, readChildren?, hknown]
  simp [attributes?_written, hread, hread', Rest.cons, Rest.trans]

end Form

/-! ## Elements in a text -/

/-- A text that stands in an element of its own: white space at its ends is not told from the
layout, and neither is a text without characters. -/
structure IsContent (s : String) : Prop where
  text : IsText s
  trimmed : trimSpace s.toList = s.toList
  nonempty : s.toList ≠ []

/-- Elements that are laid out in a text where some names are known.  White space may stand in
front of every tag, but for the end tag behind a text. -/
inductive Laid : List (String × Form) → List Element → List Char → Prop where
  | nil (known : List (String × Form)) : Laid known [] []
  | textual {known : List (String × Form)} {name s : String} {es : List Element}
    {blank cs : List Char} (hblank : ∀ c ∈ blank, isSpace c = true)
    (hknown : known.lookup name = some .text) (hname : isTagName name.toList = true)
    (hs : IsContent s) (hes : Laid known es cs) :
    Laid known (textElement name s :: es)
      (blank ++ '<' :: (name.toList ++ '>' :: (s.toList.flatMap encodeChar ++
        '<' :: '/' :: (name.toList ++ '>' :: cs))))
  | empty {known inner : List (String × Form)} {name : String}
    {attributes : List (String × String)} {es : List Element} {blank cs : List Char}
    (hblank : ∀ c ∈ blank, isSpace c = true)
    (hknown : known.lookup name = some (.children inner)) (htag : IsWritable ⟨name, attributes⟩)
    (hes : Laid known es cs) :
    Laid known (⟨name, attributes, []⟩ :: es)
      (blank ++ '<' :: (Tag.content ⟨name, attributes⟩ ++ '/' :: '>' :: cs))
  | element {known inner : List (String × Form)} {name : String}
    {attributes : List (String × String)} {children es : List Element}
    {blank blank' front cs : List Char} (hblank : ∀ c ∈ blank, isSpace c = true)
    (hblank' : ∀ c ∈ blank', isSpace c = true)
    (hknown : known.lookup name = some (.children inner)) (htag : IsWritable ⟨name, attributes⟩)
    (hchildren : Laid inner children front) (hes : Laid known es cs) :
    Laid known (⟨name, attributes, children.map Node.ofElement⟩ :: es)
      (blank ++ '<' :: (Tag.content ⟨name, attributes⟩ ++ '>' :: (front ++
        (blank' ++ '<' :: '/' :: (name.toList ++ '>' :: cs)))))

section Laid

variable {known : List (String × Form)} {own : String} {es es' : List Element}
  {behind : List Token}

/-- White space may stand in documents. -/
theorem isXmlChar_of_isSpace {c : Char} (h : isSpace c = true) :
  isXmlChar c = true
  := by
  simp only [isSpace, Bool.or_eq_true, beq_iff_eq] at h
  obtain ((rfl | rfl) | rfl) | rfl := h <;> decide

/-- White space in front of a tag is passed over. -/
theorem readFrom_blank {blank : List Char} (hblank : ∀ c ∈ blank, isSpace c = true) {depth : ℕ}
    {rest : List Char}
    (h : Form.readFrom known own (Token.scanFrom (depth + 1) ('<' :: rest)) = some (es, behind)) :
  Form.readFrom known own (Token.scanFrom (depth + 1) (blank ++ '<' :: rest)) = some (es, behind)
  := by
  by_cases hne : blank = []
  · rw [hne]
    apply h
  · have hfree {c : Char} (hc : isSpace c = false) : c ∉ blank := by
      intro hmem
      rw [hblank c hmem] at hc
      cases hc
    rw [Token.scanFrom_text (hfree (by decide)) (hfree (by decide)) _ hne]
    · apply Form.readFrom_text blank h
    · rw [List.all_eq_true]
      intro c hc
      apply isXmlChar_of_isSpace (hblank c hc)

/-- A name without attributes makes a writable tag. -/
theorem isWritable_of_isTagName {name : String} (h : isTagName name.toList = true) :
  IsWritable ⟨name, []⟩
  := ⟨h, List.forall_mem_nil _⟩

/-- Laid out elements are read as they were, in front of whatever is read behind them. -/
theorem readFrom_of_laid {cs : List Char} (h : Laid known es cs) :
  ∀ {own : String} {depth : ℕ} {rest : List Char},
    Form.readFrom known own (Token.scanFrom (depth + 1) rest) = some (es', behind) →
    Form.readFrom known own (Token.scanFrom (depth + 1) (cs ++ rest)) = some (es ++ es', behind)
  := by
  induction h generalizing es' behind with
  | nil known =>
    intro own depth rest hrest
    apply hrest
  | @textual known name s es blank cs hblank hknown hname hs hes ih =>
    intro own depth rest hrest
    have hmarks {c : Char} (hc : Xml.isMark c = true) (hne : c ≠ '&') :
        c ∉ s.toList.flatMap encodeChar := Xml.not_mem_encoded hc hne
    have hcontent := Xml.encoded_ne_nil hs.nonempty
    have hstart (cs : List Char) : Token.scanFrom (depth + 1) ('<' :: (name.toList ++ '>' :: cs)) =
        .start name [] :: Token.scanFrom (depth + 1 + 1) cs :=
      Token.scanFrom_start (isWritable_of_isTagName hname) (depth + 1) cs
    simp only [List.append_assoc, List.cons_append]
    apply readFrom_blank hblank
    rw [hstart, Token.scanFrom_text (hmarks (by decide) (by decide))
      (hmarks (by decide) (by decide)) (isXmlChar_encoded hs.text) hcontent,
      Token.scanFrom_close hname]
    apply Form.readFrom_textual [] s hknown (ih hrest)
  | @empty known inner name attributes es blank cs hblank hknown htag hes ih =>
    intro own depth rest hrest
    simp only [List.append_assoc, List.cons_append]
    apply readFrom_blank hblank
    rw [Token.scanFrom_empty htag]
    apply Form.readFrom_empty attributes hknown (ih hrest)
  | @element known inner name attributes children es blank blank' front cs hblank hblank' hknown htag
    hchildren hes ihchildren ih =>
    intro own depth rest hrest
    simp only [List.append_assoc, List.cons_append]
    apply readFrom_blank hblank
    rw [Token.scanFrom_start htag]
    have hclose : Form.readFrom inner name (Token.scanFrom (depth + 1 + 1)
        ('<' :: '/' :: (name.toList ++ '>' :: (cs ++ rest)))) =
          some ([], Token.scanFrom (depth + 1) (cs ++ rest)) := by
      rw [Token.scanFrom_close htag.name]
      apply Form.readFrom_close
    have hinner := ihchildren (readFrom_blank hblank' hclose)
    rw [List.append_nil] at hinner
    apply Form.readFrom_element attributes hknown hinner (ih hrest)

end Laid

/-! ## Whole documents -/

/-- A document is scanned behind its heading. -/
theorem scan_eq_of_heading {text : String} {rest : List Char}
    (htext : text.toList = heading.toList ++ rest) :
  Token.scan text =
    match Token.behindHead? false ('\n' :: rest) with
    | some cs => Token.scanFrom 0 cs
    | none => []
  := by
  rw [Token.scan, htext]
  rfl

/-- A document is scanned from its first tag on. -/
theorem scan_of_heading {text : String} {blank rest : List Char} {c : Char}
    (htext : text.toList = heading.toList ++ (blank ++ '<' :: c :: rest))
    (hblank : ∀ c ∈ blank, isSpace c = true) (hc : isNameChar c = true) :
  Token.scan text = Token.scanFrom 0 ('<' :: c :: rest)
  := by
  have hbang := Xml.ne_of_isNameChar hc (d := '!') (by decide)
  have hquestion := Xml.ne_of_isNameChar hc (d := '?') (by decide)
  have hskip : ('\n' :: (blank ++ '<' :: c :: rest)).dropWhile isSpace = '<' :: c :: rest := by
    rw [List.dropWhile_cons_of_pos (by decide), List.dropWhile_append_of_pos hblank,
      List.dropWhile_cons_of_neg (by decide)]
  have hbehind : Token.behindHead? false ('\n' :: (blank ++ '<' :: c :: rest)) =
      some ('<' :: c :: rest) := by
    rw [Token.behindHead?, hskip]
    simp [hbang.symm, hquestion.symm]
  rw [scan_eq_of_heading htext, hbehind]

/-- A document is scanned from the tag of its root element on. -/
theorem scan_of_tag {text : String} {blank rest : List Char} {t : Tag} (ht : IsWritable t)
    (htext : text.toList = heading.toList ++ (blank ++ '<' :: (t.content ++ rest)))
    (hblank : ∀ c ∈ blank, isSpace c = true) :
  Token.scan text = Token.scanFrom 0 ('<' :: (t.content ++ rest))
  := by
  obtain ⟨c, more, hcontent, hc⟩ := Token.exists_content_eq ht
  rw [hcontent, List.cons_append] at htext ⊢
  apply scan_of_heading htext hblank hc

/-- Where one name is known, only this one has a form. -/
theorem eq_of_lookup_singleton {name key : String} {form form' : Form}
    (h : List.lookup key [(name, form)] = some form') :
  key = name ∧ form' = form
  := by
  rw [List.lookup_cons] at h
  split at h
  · rename_i heq
    exact ⟨beq_iff_eq.mp heq, (Option.some.inj h).symm⟩
  · cases h

/-- A document in which an element is laid out is read as the element. -/
theorem read?_of_laid {known : List (String × Form)} {name text : String} {e : Element}
    {cs : List Char} (htext : text.toList = heading.toList ++ (cs ++ ['\n']))
    (h : Laid [(name, .children known)] [e] cs) :
  Form.read? known name text = some e
  := by
  cases h with
  | textual hblank hknown hname hs hes =>
    cases (eq_of_lookup_singleton hknown).2
  | @empty _ inner _ attributes _ blank _ hblank hknown htag hes =>
    obtain ⟨rfl, hform⟩ := eq_of_lookup_singleton hknown
    cases hes
    simp only [List.append_assoc, List.cons_append] at htext
    rw [Form.read?, scan_of_tag htag htext hblank, Token.scanFrom_empty_root htag, Form.readRoot?,
      if_pos (beq_self_eq_true _), Form.bare?, Form.attributes?_written]
    rfl
  | @element _ inner key attributes children _ blank blank' front _ hblank hblank' hknown htag
    hchildren hes =>
    obtain ⟨rfl, hform⟩ := eq_of_lookup_singleton hknown
    obtain rfl := Form.children.inj hform
    cases hes
    simp only [List.append_assoc, List.cons_append] at htext
    have hclose : Form.readFrom inner key (Token.scanFrom 1
        ('<' :: '/' :: (key.toList ++ '>' :: ([] ++ ['\n'])))) = some ([], []) := by
      rw [Token.scanFrom_close_root htag.name]
      apply Form.readFrom_close
    have hinner := readFrom_of_laid hchildren (readFrom_blank hblank' hclose)
    rw [List.append_nil] at hinner
    obtain ⟨⟨read, rest⟩, hread, heq⟩ := Option.map_eq_some_iff.mp hinner
    obtain ⟨rfl, -⟩ := Prod.mk.inj heq
    rw [Form.read?, scan_of_tag htag htext hblank, Token.scanFrom_start htag, Form.readRoot?,
      if_pos (beq_self_eq_true _), Form.attributes?_written]
    simp only [Option.bind_eq_bind, Option.bind_some]
    rw [hread]
    rfl

end Cosim.Document
