import Cosim.Proofs.Dictionary.RoundTrip

/-!
# Layouts of dictionaries

A dictionary can be laid out in many ways.  Blanks and comments stand before any word and mark,
words stand bare or in quotes of either kind, and a value that is null, the comma behind an item and
the semicolon behind a block may be left out.  However it is laid out, it is read as what it holds.

That a text is laid out is a relation between what is laid out, the text, and what the text goes on
with: what follows a bare word must not continue it.
-/

namespace Cosim.Dictionary

/-! ## Gaps -/

/-- Blanks and comments before a word or a mark. -/
inductive Gap : List Char → Prop where
  | nil : Gap []
  | blank {c : Char} {gap : List Char} : isSpace c = true → Gap gap → Gap (c :: gap)
  | line {comment gap : List Char} : LineComment comment → StartsLine gap → Gap gap →
    Gap (comment ++ gap)
  | block {body gap : List Char} : ¬ ['*', '/'] <:+: body → Gap gap →
    Gap ('/' :: '*' :: (body ++ '*' :: '/' :: gap))

/-- What may stand behind the last gap of a text: a comment whose line does not end. -/
inductive Ending : List Char → Prop where
  | nil : Ending []
  | line {comment : List Char} : LineComment comment → Ending comment

/-- A gap is passed over. -/
theorem Gap.skip_append {gap : List Char} (h : Gap gap) (rest : List Char) :
  skip (gap ++ rest) = skip rest
  := by
  have hskip {cs next : List Char} (hnext : Separates cs next) : skip cs = skip next :=
    skip_of_some (afterSeparator?_eq_some_iff.mpr hnext)
  induction h with
  | nil => rfl
  | blank hspace _ ih => rw [List.cons_append, hskip (.blank hspace), ih]
  | line hcomment hgap _ ih =>
    rw [List.append_assoc, hskip (.line hcomment (.inr (hgap.append rest))), ih]
  | block hbody _ ih =>
    rw [List.cons_append, List.cons_append, List.append_assoc, List.cons_append, List.cons_append,
      hskip (.block hbody), ih]

/-- A gap in front of what starts no blank or comment. -/
theorem Gap.skip_eq {gap rest : List Char} (h : Gap gap) (hrest : skip rest = rest) :
  skip (gap ++ rest) = rest
  := by rw [h.skip_append, hrest]

theorem Ending.skip_eq {ending : List Char} (h : Ending ending) :
  skip ending = []
  := by
  cases h with
  | nil => exact skip_of_none rfl
  | line h =>
    have hcomment : Separates (ending ++ []) [] := .line h (.inl rfl)
    rw [List.append_nil] at hcomment
    rw [skip_of_some (afterSeparator?_eq_some_iff.mpr hcomment), skip_of_none rfl]

/-! ## Layouts -/

/-- A word as it stands in a text: in quotes of a kind that it does not hold, or bare in front of
what does not continue it. -/
inductive Word.Laid : Word → List Char → List Char → Prop where
  | quoted {quote : Char} {s : String} {rest : List Char} : quote = '\'' ∨ quote = '"' →
    quote ∉ s.toList → Laid (.quoted s) (quote :: (s.toList ++ quote :: rest)) rest
  | bare {s : String} {rest : List Char} : IsToken s.toList → Ends rest →
    Laid (.bare s) (s.toList ++ rest) rest

/-- A form is laid out as a text in front of what the text goes on with.  Items are laid out with
the mark that closes their list, and entries with the gap behind them. -/
inductive Laid : Form → List Char → List Char → Prop where
  | word {w : Word} {cs rest : List Char} : w.Laid cs rest → Laid (.value w.value) cs rest
  | list {vs : List Value} {body rest : List Char} : Laid (.items vs) body rest →
    Laid (.value (.list vs)) ('(' :: body) rest
  | block {es : List (String × Value)} {body rest : List Char} :
    Laid (.entries es) body ('}' :: rest) →
    Laid (.value (.object (Entries.ofPairs es))) ('{' :: body) rest
  | closing {gap rest : List Char} : Gap gap → Laid (.items []) (gap ++ ')' :: rest) rest
  | item {v : Value} {vs : List Value} {gap cs next rest : List Char} : Gap gap →
    Laid (.value v) cs next → Laid (.items vs) next rest → Laid (.items (v :: vs)) (gap ++ cs) rest
  | itemComma {v : Value} {vs : List Value} {gap cs before next rest : List Char} : Gap gap →
    Laid (.value v) cs (before ++ ',' :: next) → Gap before → Laid (.items vs) next rest →
    Laid (.items (v :: vs)) (gap ++ cs) rest
  | missing {key : Word} {cs gap rest : List Char} : key.Laid cs (gap ++ ';' :: rest) → Gap gap →
    Laid (.entry (key.text, .null)) cs rest
  | ended {key : Word} {v : Value} {cs gap next before rest : List Char} :
    key.Laid cs (gap ++ next) → Gap gap → Laid (.value v) next (before ++ ';' :: rest) →
    Gap before → Laid (.entry (key.text, v)) cs rest
  | unended {key : Word} {d : Dictionary} {cs gap next rest : List Char} :
    key.Laid cs (gap ++ next) → Gap gap → Laid (.value (.object d)) next rest →
    Laid (.entry (key.text, .object d)) cs rest
  | last {gap rest : List Char} : Gap gap → Laid (.entries []) (gap ++ rest) rest
  | next {e : String × Value} {es : List (String × Value)} {gap cs next rest : List Char} :
    Gap gap → Laid (.entry e) cs next → Laid (.entries es) next rest →
    Laid (.entries (e :: es)) (gap ++ cs) rest

/-- A text that is a layout of entries. -/
def IsLayout (text : String) (es : List (String × Value)) : Prop :=
  ∃ ending, Ending ending ∧ Laid (.entries es) text.toList ending

/-! ## Reading layouts -/

theorem Word.Laid.reads {w : Word} {cs rest : List Char} (h : w.Laid cs rest) :
  WordReads cs w rest
  := by
  cases h with
  | quoted hquote hs => exact quoted_reads rest hquote hs
  | bare hs hrest => exact token_reads hs hrest

/-- What the readers find where a form is laid out.  A block takes a semicolon that follows, and
entries are read as far as more of them follow. -/
def Form.Reads : Form → List Char → List Char → Prop
  | .value v, cs, rest => skip cs = cs ∧ valueAt cs = some (v, rest)
  | .items vs, cs, rest => ItemsRead cs vs rest
  | .entry e, cs, rest =>
    skip cs = cs ∧ ((∀ c ∈ (skip rest).head?, c ≠ ';') → entryAt cs = some (e, rest))
  | .entries es, cs, rest =>
    entryAt (skip rest) = none → (∀ c ∈ (skip rest).head?, c ≠ ';') →
      EntriesRead cs es (skip rest)

theorem itemsRead_comma {cs next more rest : List Char} {v : Value} {vs : List Value}
    (hvalue : valueAt (skip cs) = some (v, next)) (hnext : skip next = ',' :: more)
    (h : ItemsRead more vs rest) :
  ItemsRead cs (v :: vs) rest
  := by
  obtain ⟨hitems, hrest⟩ := h
  have hbehind : behind ',' next = more := by rw [behind, markAt_of_skip hnext, Option.getD_some]
  have hcons : itemsAt cs = (v :: (itemsAt more).1, (itemsAt more).2) := by
    rw [itemsAt_eq, hvalue]
    simp only [hbehind]
  rw [ItemsRead, hcons, hitems]
  exact ⟨rfl, hrest⟩

theorem skip_semicolon (rest : List Char) :
  skip (';' :: rest) = ';' :: rest
  := skip_of_none rfl

/-- Every form is read where it is laid out, by induction on the layout. -/
theorem Laid.reads {form : Form} {cs rest : List Char} (h : Laid form cs rest) :
  form.Reads cs rest
  := by
  induction h with
  | word h => exact ⟨h.reads.skipped, valueAt_of_wordAt h.reads.read⟩
  | list _ ih => exact ⟨skip_of_none rfl, valueAt_of_itemsRead ih⟩
  | @block es body rest _ ih =>
    have hclose : skip ('}' :: rest) = '}' :: rest := skip_of_none rfl
    obtain ⟨hentries, hleft⟩ := ih (by rw [hclose, entryAt_eq_none (by simp)])
      (by rw [hclose]; simp)
    refine ⟨skip_of_none rfl, ?_⟩
    rw [valueAt_block, markAt_of_skip (hleft.trans hclose), hentries, Option.map_some]
  | closing hgap => exact itemsRead_nil (hgap.skip_eq (skip_of_none rfl))
  | item hgap _ _ ih ihs =>
    apply itemsRead_cons _ ihs
    rw [hgap.skip_eq ih.1, ih.2]
  | itemComma hgap _ hbefore _ ih ihs =>
    refine itemsRead_comma ?_ (hbefore.skip_eq (skip_of_none rfl)) ihs
    rw [hgap.skip_eq ih.1, ih.2]
  | missing hkey hgap =>
    refine ⟨hkey.reads.skipped, fun _ => ?_⟩
    rw [entryAt_eq, hkey.reads.read]
    simp only [hgap.skip_eq (skip_semicolon _)]
  | @ended key v cs gap next before rest hkey hgap _ hbefore ih =>
    have hvalue : valueAt (skip (gap ++ next)) = some (v, before ++ ';' :: rest) := by
      rw [hgap.skip_eq ih.1, ih.2]
    have hmark := markAt_of_skip (hbefore.skip_eq (skip_semicolon rest))
    refine ⟨hkey.reads.skipped, fun _ => ?_⟩
    rw [entryAt_of_valueAt hkey.reads.read hvalue, behind, hmark, Option.getD_some,
      Option.map_some, ite_self]
  | @unended key d cs gap next rest hkey hgap _ ih =>
    have hvalue : valueAt (skip (gap ++ next)) = some (.object d, rest) := by
      rw [hgap.skip_eq ih.1, ih.2]
    refine ⟨hkey.reads.skipped, fun hrest => ?_⟩
    rw [entryAt_of_valueAt hkey.reads.read hvalue, behind_of_head hrest]
    rfl
  | last hgap =>
    intro hleft _
    exact entriesRead_nil (hgap.skip_append _) hleft
  | next hgap _ _ ih ihs =>
    -- the entries that follow start with no semicolon that a block could take
    intro hleft hhead
    have hrest := ihs hleft hhead
    apply entriesRead_cons _ hrest
    rw [hgap.skip_eq ih.1, ih.2 (head_of_entriesRead hrest hhead)]

/-- However entries are laid out, the text is read as the dictionary of them. -/
theorem document_of_isLayout {text : String} {es : List (String × Value)} (h : IsLayout text es) :
  document text = .ok (Entries.ofPairs es)
  := by
  obtain ⟨ending, hending, hlaid⟩ := h
  have hskip := hending.skip_eq
  obtain ⟨hentries, hleft⟩ := hlaid.reads (by rw [hskip, entryAt_nil]) (by rw [hskip]; simp)
  rw [document_eq_ok, hentries, hleft]
  exact ⟨hskip, rfl⟩

/-- Entries with a text that stands in quotes, with null that is left out, and with a block that no
semicolon follows. -/
def sampleEntries : List (String × Value) := [
  ("a b", .object [("b", .list [.number (.int 1), .text "x"]), ("c", .null)]), ("d", .object [])]

theorem document_of_isLayout_sample :
  IsLayout "# c\r\n'a b'\x7bb(1,x);c;\x7d;d\x7b\x7d//" sampleEntries ∧
    document "# c\r\n'a b'\x7bb(1,x);c;\x7d;d\x7b\x7d//" = .ok (Entries.ofPairs sampleEntries)
  := by
  have htoken (s : String) (hs : s ∈ ["1", "x", "b", "c", "d"]) {c : Char} (rest : List Char)
      (hc : isBare c = false) : (Word.bare s).Laid (s.toList ++ c :: rest) (c :: rest) := by
    simp only [List.mem_cons, List.not_mem_nil, or_false] at hs
    refine .bare ?_ (ends_cons rest hc)
    obtain rfl | rfl | rfl | rfl | rfl := hs <;>
      exact ⟨by decide, List.all_eq_true.mp rfl, by decide, by decide, by decide⟩
  have hone (rest : List Char) :
      Laid (.value (.number (.int 1))) ('1' :: ',' :: rest) (',' :: rest) :=
    .word (htoken "1" (by simp) rest (by decide))
  have hx (rest : List Char) : Laid (.value (.text "x")) ('x' :: ')' :: rest) (')' :: rest) :=
    .word (htoken "x" (by simp) rest (by decide))
  have hlist (rest : List Char) : Laid (.value (.list [.number (.int 1), .text "x"]))
      ('(' :: '1' :: ',' :: 'x' :: ')' :: rest) rest :=
    .list (@Laid.itemComma _ _ [] _ [] _ _ .nil (hone _) .nil
      (@Laid.item _ _ [] _ _ _ .nil (hx _) (@Laid.closing [] rest .nil)))
  have hb (rest : List Char) : Laid (.entry ("b", .list [.number (.int 1), .text "x"]))
      ('b' :: '(' :: '1' :: ',' :: 'x' :: ')' :: ';' :: rest) rest :=
    @Laid.ended (.bare "b") _ _ [] _ [] rest (htoken "b" (by simp) _ (by decide)) .nil (hlist _)
      .nil
  have hc (rest : List Char) : Laid (.entry ("c", .null)) ('c' :: ';' :: rest) rest :=
    @Laid.missing (.bare "c") _ [] _ (htoken "c" (by simp) rest (by decide)) .nil
  have hblock (rest : List Char) :
      Laid (.value (.object [("b", .list [.number (.int 1), .text "x"]), ("c", .null)]))
        ("\x7bb(1,x);c;\x7d".toList ++ rest) rest :=
    @Laid.block [("b", .list [.number (.int 1), .text "x"]), ("c", .null)] _ _
      (@Laid.next _ _ [] _ _ _ .nil (hb _)
        (@Laid.next _ _ [] _ _ _ .nil (hc _) (@Laid.last [] ('}' :: rest) .nil)))
  have ha (rest : List Char) :
      Laid (.entry ("a b", .object [("b", .list [.number (.int 1), .text "x"]), ("c", .null)]))
        ("'a b'\x7bb(1,x);c;\x7d;".toList ++ rest) rest :=
    @Laid.ended (.quoted "a b") _ _ [] _ [] rest
      (@Word.Laid.quoted '\'' "a b" _ (.inl rfl) (by decide)) .nil (hblock _) .nil
  have hd (rest : List Char) : Laid (.entry ("d", .object [])) ('d' :: '{' :: '}' :: rest) rest :=
    @Laid.unended (.bare "d") [] _ [] _ rest (htoken "d" (by simp) _ (by decide)) .nil
      (@Laid.block [] _ _ (@Laid.last [] _ .nil))
  have hgap : Gap "# c\r\n".toList :=
    @Gap.line "# c".toList "\r\n".toList (.hash (by decide) (by decide)) (.inr (List.prefix_refl _))
      (.blank rfl (.blank rfl .nil))
  have hlayout : IsLayout "# c\r\n'a b'\x7bb(1,x);c;\x7d;d\x7b\x7d//" sampleEntries :=
    ⟨['/', '/'], .line (.slashes (by decide) (by decide)),
      @Laid.next _ _ _ _ _ _ hgap (ha _)
        (@Laid.next _ _ [] _ _ _ .nil (hd _) (@Laid.last [] _ .nil))⟩
  exact ⟨hlayout, document_of_isLayout hlayout⟩

end Cosim.Dictionary
