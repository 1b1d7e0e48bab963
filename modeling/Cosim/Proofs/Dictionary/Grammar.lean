import Cosim.Proofs.Dictionary.Word

/-!
# The grammar of dictionaries

The readers of values, entries, items and documents in terms of what they leave of the text, as
equations that follow the grammar.
-/

namespace Cosim.Dictionary

/-! ## What readers leave -/

/-- The value at the start of a text, and what is left behind it. -/
def valueAt (cs : List Char) : Option (Value × List Char) :=
  (value? cs).map fun (v, rest) => (v, rest.val)

/-- The entry at the start of a text, and what is left behind it. -/
def entryAt (cs : List Char) : Option ((String × Value) × List Char) :=
  entry? cs |>.map fun (e, rest) => (e, rest.val)

/-- The entries at the start of a text, and what is left behind them. -/
def entriesAt (cs : List Char) : List (String × Value) × List Char :=
  ((entries cs).1, (entries cs).2.val)

/-- The items at the start of a text, and what is left behind them. -/
def itemsAt (cs : List Char) : List Value × List Char :=
  ((items cs).1, (items cs).2.val)

/-- What is left behind a mark. -/
def markAt (mark : Char) (cs : List Char) : Option (List Char) :=
  match skip cs with
  | [] => none
  | c :: rest => if c == mark then some rest else none

/-- Reading a mark leaves what is left behind it. -/
theorem map_mark? (mark : Char) (cs : List Char) :
  (mark? mark cs).map (·.val) = markAt mark cs
  := by
  unfold mark? markAt
  split
  · rename_i hskip
    simp only [hskip, Option.map_none]
  · rename_i c rest hskip
    simp only [hskip]
    split <;> rfl

/-- A mark that stands next is read. -/
theorem markAt_of_skip {mark : Char} {cs rest : List Char} (h : skip cs = mark :: rest) :
  markAt mark cs = some rest
  := by
  rw [markAt, h]
  simp

/-- A mark is read exactly if it stands next behind separators. -/
theorem markAt_eq_some_iff {mark : Char} {cs rest : List Char} :
  markAt mark cs = some rest ↔ skip cs = mark :: rest
  := by
  constructor
  · intro h
    rw [markAt] at h
    split at h
    · cases h
    · rename_i c more hskip
      split at h
      · rename_i hc
        cases h
        rw [hskip, beq_iff_eq.mp hc]
      · cases h
  · exact markAt_of_skip

/-- What is left behind a mark that may be missing. -/
def behind (mark : Char) (cs : List Char) : List Char := (markAt mark cs).getD cs

/-- An optional mark leaves what is behind it, be it there or not. -/
theorem val_optional {cs : List Char} (r : Text.Rest cs) (mark : Char) :
  (optional r mark).val = behind mark r.val
  := by
  rw [behind, ← map_mark?]
  unfold optional
  split
  · rename_i s hs
    rw [hs]
    rfl
  · rename_i hnone
    rw [hnone]
    rfl

/-- A mark that is missing is not passed over. -/
theorem behind_of_head {mark : Char} {cs : List Char} (h : ∀ c ∈ (skip cs).head?, c ≠ mark) :
  behind mark cs = cs
  := by
  rw [behind, markAt]
  split
  · rfl
  · rename_i c rest hskip
    rw [hskip] at h
    rw [if_neg (by simpa using h c rfl), Option.getD_none]

/-- An entry that is read leaves less. -/
theorem length_of_entryAt {cs rest : List Char} {e : String × Value}
    (h : entryAt cs = some (e, rest)) :
  rest.length < cs.length
  := by
  rw [entryAt, Option.map_eq_some_iff] at h
  obtain ⟨⟨e', r⟩, -, heq⟩ := h
  simp only [Prod.mk.injEq] at heq
  rw [← heq.2]
  apply r.property

/-- A value that is read leaves less. -/
theorem length_of_valueAt {cs rest : List Char} {v : Value} (h : valueAt cs = some (v, rest)) :
  rest.length < cs.length
  := by
  rw [valueAt, Option.map_eq_some_iff] at h
  obtain ⟨⟨v', r⟩, -, heq⟩ := h
  simp only [Prod.mk.injEq] at heq
  rw [← heq.2]
  apply r.property

/-- A word that is read leaves less. -/
theorem length_of_wordAt {cs rest : List Char} {w : Word} (h : wordAt cs = some (w, rest)) :
  rest.length < cs.length
  := by
  rw [wordAt, Option.map_eq_some_iff] at h
  obtain ⟨⟨w', r⟩, -, heq⟩ := h
  simp only [Prod.mk.injEq] at heq
  rw [← heq.2]
  apply r.property

/-- An optional mark leaves no more. -/
theorem length_behind (mark : Char) (cs : List Char) :
  (behind mark cs).length ≤ cs.length
  := by
  rw [behind, ← map_mark?]
  cases mark? mark cs with
  | none => apply Nat.le_refl
  | some r => apply Nat.le_of_lt r.property

/-- A mark that is read leaves less. -/
theorem length_of_markAt {mark : Char} {cs rest : List Char} (h : markAt mark cs = some rest) :
  rest.length < cs.length
  := by
  have hskip := length_skip cs
  rw [markAt_eq_some_iff.mp h, List.length_cons] at hskip
  omega

/-- What a reader finds in a text. -/
inductive Form where
  | value (v : Value)
  | items (vs : List Value)
  | entry (e : String × Value)
  | entries (es : List (String × Value))

/-! ## Values -/

/-- A block is read as its entries up to the closing brace. -/
theorem valueAt_block (body : List Char) :
  valueAt ('{' :: body) =
    (markAt '}' (entriesAt body).2).map fun rest =>
      (.object (Entries.ofPairs (entriesAt body).1), rest)
  := by
  rw [valueAt, value?, ← map_mark?]
  simp only [entriesAt]
  cases mark? '}' (entries body).2.val <;> rfl

/-- A list is read as its items up to the closing parenthesis. -/
theorem valueAt_list (body : List Char) :
  valueAt ('(' :: body) =
    (markAt ')' (itemsAt body).2).map fun rest => (.list (itemsAt body).1, rest)
  := by
  rw [valueAt, value?, ← map_mark?]
  simp only [itemsAt]
  cases mark? ')' (items body).2.val <;> rfl

/-- What begins neither a block nor a list is read as a word. -/
theorem valueAt_word {cs : List Char} (h : ∀ c ∈ cs.head?, c ≠ '{' ∧ c ≠ '(') :
  valueAt cs = (wordAt cs).map fun (w, rest) => (w.value, rest)
  := by
  rw [valueAt, value?, wordAt]
  · cases word? cs <;> rfl
  · rintro body rfl
    apply (h _ rfl).1 rfl
  · rintro body rfl
    apply (h _ rfl).2 rfl

/-! ## Entries and items -/

/-- An entry is a key with nothing, with a block or with another value that a semicolon ends. -/
theorem entryAt_eq (cs : List Char) :
  entryAt cs =
    match wordAt cs with
    | none => none
    | some (key, rest) =>
      match skip rest with
      | ';' :: rest => some ((key.text, .null), rest)
      | next =>
        match valueAt next with
        | none => none
        | some (v, rest) =>
          if v.isObject then some ((key.text, v), behind ';' rest)
          else (markAt ';' rest).map ((key.text, v), ·)
  := by
  rw [entryAt, entry?, wordAt]
  cases word? cs with
  | none => rfl
  | some found =>
    obtain ⟨key, r⟩ := found
    simp only [Option.map_some]
    split
    · rename_i rest hskip
      simp only [hskip, Option.map_some]
    · rename_i hnext
      have hmatch : ∀ {β : Type} (f : List Char → β) (g : List Char → β),
          (match skip r.val with
            | ';' :: rest => f rest
            | next => g next) = g (skip r.val) := by
        intro β f g
        split
        · rename_i rest hskip
          apply absurd hskip (hnext rest)
        · rfl
      rw [hmatch, valueAt]
      cases value? (skip r.val) with
      | none => rfl
      | some found =>
        obtain ⟨v, s⟩ := found
        simp only [Option.map_some]
        split
        · rw [Option.map_some, val_optional]
          rfl
        · rw [← map_mark?]
          simp only [afterSkip, Text.Rest.trans]
          cases mark? ';' s.val <;> rfl

/-- Entries are read one after the other until there is none. -/
theorem entriesAt_eq (cs : List Char) :
  entriesAt cs =
    match entryAt (skip cs) with
    | none => ([], cs)
    | some (e, rest) => (e :: (entriesAt rest).1, (entriesAt rest).2)
  := by
  rw [entriesAt, entries, entryAt]
  cases entry? (skip cs) with
  | none => rfl
  | some found => rfl

/-- Items are read one after the other until there is none, with commas that may be missing. -/
theorem itemsAt_eq (cs : List Char) :
  itemsAt cs =
    match valueAt (skip cs) with
    | none => ([], cs)
    | some (v, rest) => (v :: (itemsAt (behind ',' rest)).1, (itemsAt (behind ',' rest)).2)
  := by
  rw [itemsAt, items, valueAt]
  cases value? (skip cs) with
  | none => rfl
  | some found =>
    obtain ⟨v, r⟩ := found
    have hrest := val_optional (afterSkip r) ','
    simp only [Option.map_some]
    rw [show behind ',' r.val = _ from hrest.symm]
    rfl

/-- A text is a dictionary if its entries are all there is. -/
theorem document_eq_ok {text : String} {d : Dictionary} :
  document text = .ok d ↔
    skip (entriesAt text.toList).2 = [] ∧ Entries.ofPairs (entriesAt text.toList).1 = d
  := by
  rw [document, entriesAt]
  simp only [List.isEmpty_iff]
  split <;> simp [*]

/-! ## Texts that start no value -/

/-- No word begins with a mark. -/
theorem wordAt_eq_none {c : Char} {cs : List Char} (h : c ∈ [',', ';', ')', '}']) :
  wordAt (c :: cs) = none
  := by
  simp only [List.mem_cons, List.not_mem_nil, or_false] at h
  obtain rfl | rfl | rfl | rfl := h <;> rfl

/-- No value begins with a mark. -/
theorem valueAt_eq_none {c : Char} {cs : List Char} (h : c ∈ [',', ';', ')', '}']) :
  valueAt (c :: cs) = none
  := by
  rw [valueAt_word, wordAt_eq_none h, Option.map_none]
  intro d hd
  rw [List.head?_cons, Option.mem_some_iff] at hd
  subst hd
  constructor <;> rintro rfl <;> simp at h

/-- No entry begins with a mark. -/
theorem entryAt_eq_none {c : Char} {cs : List Char} (h : c ∈ [',', ';', ')', '}']) :
  entryAt (c :: cs) = none
  := by
  rw [entryAt_eq, wordAt_eq_none h]

theorem entryAt_nil :
  entryAt [] = none
  := by
  rw [entryAt_eq]
  rfl

/-- An empty text has no entries. -/
theorem document_empty :
  document "" = .ok []
  := by
  have hskip : skip "".toList = [] := skip_of_none rfl
  have hentries : entriesAt "".toList = ([], "".toList) := by
    rw [entriesAt_eq, hskip, entryAt_nil]
  rw [document_eq_ok, hentries]
  exact ⟨hskip, rfl⟩

/-- What starts a value is no mark that ends one. -/
theorem head_of_valueAt {cs rest : List Char} {v : Value} (h : valueAt cs = some (v, rest)) :
  ∀ c ∈ cs.head?, c ∉ [',', ';', ')', '}']
  := by
  intro c hc hmem
  cases cs with
  | nil => cases hc
  | cons d cs =>
    rw [List.head?_cons, Option.mem_some_iff] at hc
    subst hc
    rw [valueAt_eq_none hmem] at h
    cases h

/-! ## Words and values that are read -/

/-- Where a word is read, so is its value. -/
theorem valueAt_of_wordAt {cs rest : List Char} {w : Word} (h : wordAt cs = some (w, rest)) :
  valueAt cs = some (w.value, rest)
  := by
  rw [valueAt_word, h, Option.map_some]
  intro c hc
  cases cs with
  | nil => cases hc
  | cons d cs =>
    rw [List.head?_cons, Option.mem_some_iff] at hc
    subst hc
    constructor <;> rintro rfl <;> cases h

/-- A key with a value is an entry if the value is a block or a semicolon follows. -/
theorem entryAt_of_valueAt {cs left rest : List Char} {w : Word} {v : Value}
    (hword : wordAt cs = some (w, left)) (hvalue : valueAt (skip left) = some (v, rest)) :
  entryAt cs =
    if v.isObject then some ((w.text, v), behind ';' rest)
    else (markAt ';' rest).map ((w.text, v), ·)
  := by
  have hhead := head_of_valueAt hvalue
  rw [entryAt_eq, hword]
  simp only
  split
  · rename_i more hskip
    rw [hskip] at hhead
    simp at hhead
  · rw [hvalue]

end Cosim.Dictionary
