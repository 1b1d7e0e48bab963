import Cosim.Proofs.Document.Form

/-!
# Written documents

A tree that fits a form is written in one line or indented, and read by the form either way as it
was: the lines and indents of the second text say nothing that the first one does not.
-/

namespace Cosim.Document

open Xml (Element Node Tag Markup Layout encodeChar isSpace trimSpace)
open Xml.Markup (write_start write_empty write_close write_text writeAll_cons isSpace_of_mem_lead
  Scan scan_of_toList scanFrom scanFrom_eq scanFrom_mark scanFrom_text begins_start begins_empty
  begins_close next openAfter?_start openAfter?_close textPieces)
open Token (IsWritable)

/-! ## Trees that fit a form -/

/-- Elements that can stand side by side where some names are known, each with what its form
admits. -/
inductive Listed : List (String × Form) → List Element → Prop where
  | nil (known : List (String × Form)) : Listed known []
  | textual {known : List (String × Form)} {name s : String} {es : List Element}
    (hknown : known.lookup name = some .text) (hname : isTagName name.toList = true)
    (hs : IsContent s) (hes : Listed known es) :
    Listed known (textElement name s :: es)
  | element {known inner : List (String × Form)} {name : String}
    {attributes : List (String × String)} {children es : List Element}
    (hknown : known.lookup name = some (.children inner)) (htag : IsWritable ⟨name, attributes⟩)
    (hchildren : Listed inner children) (hes : Listed known es) :
    Listed known (⟨name, attributes, children.map Node.ofElement⟩ :: es)

/-- The markup of elements side by side. -/
def markups (es : List Element) : List Markup := Node.markups (es.map Node.ofElement)

/-- An element with a text is marked up as its start, its text and its end. -/
theorem markups_textElement (name s : String) (es : List Element) :
  markups (textElement name s :: es) =
    .start name.toList :: .text (s.toList.flatMap encodeChar) :: .close name.toList :: markups es
  := by
  rw [← Xml.toList_encode]
  rfl

theorem markups_empty (name : String) (attributes : List (String × String)) (es : List Element) :
  markups (⟨name, attributes, []⟩ :: es) = .empty (Tag.content ⟨name, attributes⟩) :: markups es
  := rfl

/-- An element with children is marked up as its start, its children and its end. -/
theorem markups_element (name : String) (attributes : List (String × String)) {children : List Element}
    (hne : children ≠ []) (es : List Element) :
  markups (⟨name, attributes, children.map Node.ofElement⟩ :: es) =
    .start (Tag.content ⟨name, attributes⟩) ::
      (markups children ++ .close name.toList :: markups es)
  := by
  have hsome : (children.map Node.ofElement).isEmpty = false := by
    rw [List.isEmpty_map, List.isEmpty_eq_false_iff]
    apply hne
  rw [markups, List.map_cons, Node.markups, Node.ofElement, Node.markup, hsome]
  simp [markups]

/-! ## One line -/

/-- The text of markup in one line. -/
def flatText (ms : List Markup) : List Char := ms.flatMap fun m => (Layout.initial.write m).1

theorem flatText_cons (m : Markup) (ms : List Markup) :
  flatText (m :: ms) = (Layout.initial.write m).1 ++ flatText ms
  := List.flatMap_cons

/-- Markup is written one after the other. -/
theorem flatText_append (ms ms' : List Markup) :
  flatText (ms ++ ms') = flatText ms ++ flatText ms'
  := List.flatMap_append

/-- Nothing stands in front of a piece that does not start a line. -/
theorem lead_eq_nil (depth : ℕ) :
  Layout.lead ⟨depth, false⟩ = []
  := rfl

/-- The text of listed elements in one line lays them out. -/
theorem laid_flatText {known : List (String × Form)} {es : List Element} (h : Listed known es) :
  Laid known es (flatText (markups es))
  := by
  induction h with
  | nil known => exact .nil known
  | @textual known name s es hknown hname hs hes ih =>
    have hlaid := Laid.textual (List.forall_mem_nil _) hknown hname hs ih
    rw [markups_textElement]
    simpa [flatText_cons, write_start, write_text, write_close, Layout.initial, lead_eq_nil] using hlaid
  | @element known inner name attributes children es hknown htag hchildren hes ihchildren ih =>
    by_cases hne : children = []
    · subst hne
      have hlaid := Laid.empty (List.forall_mem_nil _) hknown htag ih
      rw [List.map_nil, markups_empty]
      simpa [flatText_cons, write_empty, Layout.initial, lead_eq_nil] using hlaid
    · have hlaid := Laid.element (List.forall_mem_nil _) (List.forall_mem_nil _) hknown htag
        ihchildren ih
      rw [markups_element name attributes hne]
      simpa [flatText_cons, flatText_append, write_start, write_close, Layout.initial,
        lead_eq_nil] using hlaid

/-! ## Indented -/

/-- Written markup of elements stands in front of whatever is written behind it. -/
theorem laid_writeAll {known : List (String × Form)} {es : List Element} (h : Listed known es) :
  ∀ l : Layout, ∃ cs, ∃ after : Layout, Laid known es cs ∧
    ∀ ms, l.writeAll (markups es ++ ms) = cs ++ after.writeAll ms
  := by
  induction h with
  | nil known =>
    intro l
    exact ⟨[], l, .nil known, fun ms => rfl⟩
  | @textual known name s es hknown hname hs hes ih =>
    intro l
    obtain ⟨cs, after, hlaid, hwrite⟩ := ih ⟨l.depth + 1 - 1, true⟩
    refine ⟨_, after, .textual (fun c => isSpace_of_mem_lead (l := l)) hknown hname hs hlaid,
      fun ms => ?_⟩
    rw [markups_textElement]
    simp only [List.cons_append, writeAll_cons, write_start, write_text, write_close, lead_eq_nil,
      hwrite]
    simp
  | @element known inner name attributes children es hknown htag hchildren hes ihchildren ih =>
    intro l
    by_cases hne : children = []
    · subst hne
      obtain ⟨cs, after, hlaid, hwrite⟩ := ih ⟨l.depth, true⟩
      refine ⟨_, after, .empty (fun c => isSpace_of_mem_lead (l := l)) hknown htag hlaid,
        fun ms => ?_⟩
      rw [List.map_nil, markups_empty]
      simp only [List.cons_append, writeAll_cons, write_empty, hwrite]
      simp
    · obtain ⟨front, inside, hfront, hinside⟩ := ihchildren ⟨l.depth + 1, true⟩
      obtain ⟨cs, after, hlaid, hwrite⟩ := ih ⟨inside.depth - 1, true⟩
      refine ⟨_, after, .element (fun c => isSpace_of_mem_lead (l := l))
        (fun c => isSpace_of_mem_lead (l := ⟨inside.depth - 1, inside.breaks⟩)) hknown htag hfront
        hlaid, fun ms => ?_⟩
      rw [markups_element name attributes hne]
      simp only [List.cons_append, List.append_assoc, writeAll_cons, write_start, hinside,
        write_close, hwrite]
      simp

/-! ## Documents -/

/-- A tag without attributes is its name. -/
theorem content_name (name : String) :
  Tag.content ⟨name, []⟩ = name.toList
  := by
  rw [Tag.content_eq, List.flatMap_nil, List.append_nil]

/-- A line of markup is scanned as it was written, in front of whatever is marked up behind it. -/
theorem scanFrom_flatText {known : List (String × Form)} {es : List Element}
    (h : Listed known es) :
  ∀ (opened : List (List Char)) {rest : List Char}, (∀ c ∈ rest.head?, c = '<') →
    scanFrom opened (flatText (markups es) ++ rest) =
      (scanFrom opened rest).behind (markups es)
  := by
  induction h with
  | nil known =>
    intro opened rest hrest
    rfl
  | @textual known name s es hknown hname hs hes ih =>
    intro opened rest hrest
    have hnamed := isName_of_isTagName hname
    have htag : Tag.Named ⟨name, []⟩ := ⟨hnamed, List.forall_mem_nil _⟩
    have hline : flatText (markups (textElement name s :: es)) ++ rest =
        '<' :: (Tag.content ⟨name, []⟩ ++ '>' :: (s.toList.flatMap encodeChar ++
          '<' :: '/' :: (name.toList ++ '>' :: (flatText (markups es) ++ rest)))) := by
      rw [markups_textElement, content_name]
      simp [flatText_cons, write_start, write_text, write_close, Layout.initial, lead_eq_nil]
    have hpiece : textPieces (s.toList.flatMap encodeChar) =
        [.text (s.toList.flatMap encodeChar)] := by
      rw [textPieces, Xml.trimSpace_encoded, hs.trimmed, if_neg (Xml.encoded_ne_nil hs.nonempty)]
    rw [hline, scanFrom_mark (begins_start htag _) (openAfter?_start htag _),
      scanFrom_text (Xml.not_mem_encoded (by decide) (by decide)) (by simp), hpiece,
      scanFrom_mark (begins_close hnamed _) (openAfter?_close _ _), ih opened hrest, markups_textElement,
      content_name]
    rfl
  | @element known inner name attributes children es hknown htag hchildren hes ihchildren ih =>
    intro opened rest hrest
    have hnamed := isName_of_isTagName htag.name
    by_cases hne : children = []
    · subst hne
      have hline : flatText (.empty (Tag.content ⟨name, attributes⟩) :: markups es) ++ rest =
          '<' :: (Tag.content ⟨name, attributes⟩ ++ '/' :: '>' ::
            (flatText (markups es) ++ rest)) := by
        simp [flatText_cons, write_empty, Layout.initial, lead_eq_nil]
      rw [List.map_nil, markups_empty, hline, scanFrom_mark (begins_empty htag.named _) rfl,
        ih opened hrest]
      rfl
    · have hline : flatText (.start (Tag.content ⟨name, attributes⟩) ::
          (markups children ++ .close name.toList :: markups es)) ++ rest =
            '<' :: (Tag.content ⟨name, attributes⟩ ++ '>' :: (flatText (markups children) ++
              '<' :: '/' :: (name.toList ++ '>' :: (flatText (markups es) ++ rest)))) := by
        simp [flatText_cons, flatText_append, write_start, write_close, Layout.initial,
          lead_eq_nil]
      rw [markups_element name attributes hne, hline,
        scanFrom_mark (begins_start htag.named _) (openAfter?_start htag.named _), ihchildren _ (by simp),
        scanFrom_mark (begins_close hnamed _) (openAfter?_close _ _), ih opened hrest]
      simp [Scan.behind]

/-- The markup of elements begins with a start tag or a tag without content. -/
theorem exists_markups_eq {known : List (String × Form)} {es : List Element}
    (h : Listed known es) (hne : es ≠ []) :
  ∃ m ms, markups es = m :: ms ∧ ∃ content, m = .start content ∨ m = .empty content
  := by
  cases h with
  | nil => exact absurd rfl hne
  | textual hknown hname hs hes =>
    rw [markups_textElement]
    exact ⟨_, _, rfl, _, .inl rfl⟩
  | @element _ inner name attributes children es hknown htag hchildren hes =>
    by_cases hnone : children = []
    · subst hnone
      exact ⟨_, _, markups_empty name attributes es, _, .inr rfl⟩
    · rw [markups_element name attributes hnone]
      exact ⟨_, _, rfl, _, .inl rfl⟩

/-- Tags are joined behind what is no start tag. -/
theorem joinTags_cons {m : Markup} {ms : List Markup} (h : ∀ content, m ≠ .start content) :
  joinTags (m :: ms) = m :: joinTags ms
  := by
  cases m with
  | start content => exact absurd rfl (h content)
  | _ => rw [joinTags]; rintro _ _ _ ⟨⟩

/-- A start tag stays as it is before what is no end tag. -/
theorem joinTags_start {m : Markup} (content : List Char) (ms : List Markup)
    (h : ∀ name, m ≠ .close name) :
  joinTags (.start content :: m :: ms) = .start content :: joinTags (m :: ms)
  := by
  cases m with
  | close name => exact absurd rfl (h name)
  | _ => rw [joinTags]; rintro _ _ _ - ⟨⟩

/-- No start tag stands right in front of an end tag. -/
theorem joinTags_append {known : List (String × Form)} {es : List Element} (h : Listed known es) :
  ∀ ms, joinTags (markups es ++ ms) = markups es ++ joinTags ms
  := by
  induction h with
  | nil known =>
    intro ms
    rfl
  | @textual known name s es hknown hname hs hes ih =>
    intro ms
    rw [markups_textElement]
    simp only [List.cons_append]
    rw [joinTags_start _ _ (by rintro _ ⟨⟩), joinTags_cons (by rintro _ ⟨⟩),
      joinTags_cons (by rintro _ ⟨⟩), ih]
  | @element known inner name attributes children es hknown htag hchildren hes ihchildren ih =>
    intro ms
    by_cases hne : children = []
    · subst hne
      rw [List.map_nil, markups_empty, List.cons_append, joinTags_cons (by rintro _ ⟨⟩), ih,
        List.cons_append]
    · obtain ⟨m, more, hfront, content, htag⟩ := exists_markups_eq hchildren hne
      have hm : ∀ name, m ≠ .close name := by
        rintro name rfl
        obtain htag | htag := htag <;> cases htag
      have hinside := ihchildren (.close name.toList :: (markups es ++ ms))
      rw [joinTags_cons (by rintro _ ⟨⟩), ih] at hinside
      rw [markups_element name attributes hne]
      simp only [List.cons_append, List.append_assoc]
      rw [hfront, List.cons_append] at hinside ⊢
      rw [joinTags_start _ _ hm, hinside, List.cons_append]

section Documents

variable {known : List (String × Form)} {name : String} {e : Element}

theorem markups_singleton (e : Element) :
  markups [e] = (Node.ofElement e).markup
  := by
  rw [markups, List.map_singleton, Node.markups, Node.markups, List.append_nil]

/-- The text of an element in one line is that of its markup. -/
theorem toList_line (e : Element) :
  (line e).toList = flatText (markups [e])
  := by
  rw [line, String.toList_ofList, markups_singleton, flatText]

/-- A line is read again piece by piece, and no place in it is malformed. -/
theorem scan_line (h : Listed known [e]) :
  Markup.scan (line e) = ⟨markups [e], false⟩
  := by
  have hmark : ∃ cs, flatText (markups [e]) = '<' :: cs := by
    obtain ⟨m, ms, heq, content, rfl | rfl⟩ := exists_markups_eq h (List.cons_ne_nil _ _)
    · exact ⟨content ++ ['>'] ++ flatText ms, by rw [heq, flatText_cons]; rfl⟩
    · exact ⟨content ++ ['/', '>'] ++ flatText ms, by rw [heq, flatText_cons]; rfl⟩
  have hnone : ∀ c ∈ [].head?, c = '<' := by simp
  have hscan := scanFrom_flatText h [] hnone
  obtain ⟨cs, hcs⟩ := hmark
  rw [List.append_nil, hcs] at hscan
  rw [scan_of_toList ((toList_line e).trans hcs), hscan, scanFrom_eq]
  simp [next, Scan.ofNext, Scan.behind]

/-- An element that is listed is read back from one line. -/
theorem read?_flat (h : Listed [(name, .children known)] [e]) :
  Form.read? known name (flat e) = some e
  := by
  apply read?_of_laid _ (laid_flatText h)
  rw [flat, String.toList_append, String.toList_append, toList_line, List.append_assoc]
  rfl

/-- An element that is listed is read back from many lines. -/
theorem read?_pretty (h : Listed [(name, .children known)] [e]) :
  Form.read? known name (pretty e) = some e
  := by
  obtain ⟨cs, after, hlaid, hwrite⟩ := laid_writeAll h Layout.initial
  have hjoined := joinTags_append h []
  have htext := hwrite []
  rw [List.append_nil, joinTags, List.append_nil] at hjoined
  rw [List.append_nil, Layout.writeAll, List.append_nil] at htext
  apply read?_of_laid _ hlaid
  rw [pretty, indent, scan_line h, hjoined, Markup.layOut, htext, String.toList_append,
    String.toList_append, String.toList_ofList, List.append_assoc]
  rfl

/-- A value is read from both of the texts that its element is written as, the second of which is
the first one read without a malformed place and laid out anew. -/
structure Survives {α : Type} (read? : String → Option α) (e : Element) (a : α) : Prop where
  flat : read? (flat e) = some a
  line : (Markup.scan (line e)).malformed = false
  pretty : read? (pretty e) = some a

/-- A value survives if its element is listed and is read back. -/
theorem survives_of_listed {α : Type} {ofElement? : Element → Option α} {a : α}
    (h : Listed [(name, .children known)] [e]) (hread : ofElement? e = some a) :
  Survives (fun text => (Form.read? known name text).bind ofElement?) e a where
  flat := by rw [read?_flat h, Option.bind_some, hread]
  line := by rw [scan_line h]
  pretty := by rw [read?_pretty h, Option.bind_some, hread]

end Documents

end Cosim.Document
