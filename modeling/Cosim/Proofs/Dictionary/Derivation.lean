import Cosim.Proofs.Dictionary.Grammar

/-!
# Readings

Whatever the readers find has a reading: a derivation that says which words and marks are read, one
after another, and what each of them leaves.  Every reading is what the readers find, and what it
leaves is an end of the text.  So what holds of all readings, by induction on them, holds of the
readers.
-/

namespace Cosim.Dictionary

/-- A form is read from a text, behind the blanks and comments in front of it, and leaves another
text.  A list is read as far as its closing mark; the entries of a block are read as far as given
ones go. -/
inductive Reading : Form → List Char → List Char → Prop where
  | word {w : Word} {cs rest : List Char} : wordAt (skip cs) = some (w, rest) →
    Reading (.value w.value) cs rest
  | list {vs : List Value} {cs body rest : List Char} : markAt '(' cs = some body →
    Reading (.items vs) body rest → Reading (.value (.list vs)) cs rest
  | block {es : List (String × Value)} {cs body left rest : List Char} :
    markAt '{' cs = some body → Reading (.entries es) body left → markAt '}' left = some rest →
    Reading (.value (.object (Entries.ofPairs es))) cs rest
  | closing {cs rest : List Char} : markAt ')' cs = some rest → Reading (.items []) cs rest
  | item {v : Value} {vs : List Value} {cs next rest : List Char} : Reading (.value v) cs next →
    Reading (.items vs) (behind ',' next) rest → Reading (.items (v :: vs)) cs rest
  | missing {key : Word} {cs next rest : List Char} : wordAt (skip cs) = some (key, next) →
    markAt ';' next = some rest → Reading (.entry (key.text, .null)) cs rest
  | ended {key : Word} {v : Value} {cs next left rest : List Char} :
    wordAt (skip cs) = some (key, next) → Reading (.value v) next left → v.isObject = false →
    markAt ';' left = some rest → Reading (.entry (key.text, v)) cs rest
  | braced {key : Word} {v : Value} {cs next left : List Char} :
    wordAt (skip cs) = some (key, next) → Reading (.value v) next left → v.isObject = true →
    Reading (.entry (key.text, v)) cs (behind ';' left)
  | last {cs : List Char} : Reading (.entries []) cs cs
  | next {e : String × Value} {es : List (String × Value)} {cs next rest : List Char} :
    Reading (.entry e) cs next → Reading (.entries es) next rest →
    Reading (.entries (e :: es)) cs rest

/-! ## Readings are found -/

/-- What the readers find where a form is read.  Entries are found as far as more of them follow. -/
def Form.Found : Form → List Char → List Char → Prop
  | .value v, cs, rest => valueAt (skip cs) = some (v, rest)
  | .items vs, cs, rest => (itemsAt cs).1 = vs ∧ markAt ')' (itemsAt cs).2 = some rest
  | .entry e, cs, rest => entryAt (skip cs) = some (e, rest)
  | .entries es, cs, rest => entryAt (skip rest) = none → entriesAt cs = (es, rest)

theorem Reading.found {form : Form} {cs rest : List Char} (h : Reading form cs rest) :
  form.Found cs rest
  := by
  induction h with
  | word h => exact valueAt_of_wordAt h
  | list hopen _ ih =>
    rw [Form.Found, markAt_eq_some_iff.mp hopen, valueAt_list, ih.2, Option.map_some, ih.1]
  | block hopen _ hclose ih =>
    rw [Form.Found, markAt_eq_some_iff.mp hopen, valueAt_block, ih, hclose, Option.map_some]
    rw [markAt_eq_some_iff.mp hclose, entryAt_eq_none (by simp)]
  | @closing cs rest h =>
    have hitems : itemsAt cs = ([], cs) := by
      rw [itemsAt_eq, markAt_eq_some_iff.mp h, valueAt_eq_none (by simp)]
    rw [Form.Found, hitems]
    exact ⟨rfl, h⟩
  | @item v vs cs next rest _ _ ih ihs =>
    have hitems : itemsAt cs =
        (v :: (itemsAt (behind ',' next)).1, (itemsAt (behind ',' next)).2) := by
      rw [itemsAt_eq, ih]
    rw [Form.Found, hitems, ihs.1]
    exact ⟨rfl, ihs.2⟩
  | missing hkey hmark =>
    rw [Form.Found, entryAt_eq, hkey]
    simp only [markAt_eq_some_iff.mp hmark]
  | ended hkey _ hobject hmark ih =>
    rw [Form.Found, entryAt_of_valueAt hkey ih, if_neg (by simp [hobject]), hmark, Option.map_some]
  | braced hkey _ hobject ih => rw [Form.Found, entryAt_of_valueAt hkey ih, if_pos hobject]
  | last =>
    intro hrest
    rw [entriesAt_eq, hrest]
  | @next e es cs next rest _ _ ih ihs =>
    intro hrest
    rw [entriesAt_eq, ih]
    simp only [ihs hrest]

/-! ## What is found has a reading -/

/-- What holds of all texts of a length: whatever is found in them has a reading. -/
structure HasReadings (n : Nat) : Prop where
  value : ∀ cs : List Char, cs.length = n → ∀ v rest, valueAt (skip cs) = some (v, rest) →
    Reading (.value v) cs rest
  entry : ∀ cs : List Char, cs.length = n → ∀ e rest, entryAt (skip cs) = some (e, rest) →
    Reading (.entry e) cs rest
  entries : ∀ cs : List Char, cs.length = n →
    Reading (.entries (entriesAt cs).1) cs (entriesAt cs).2
  items : ∀ cs : List Char, cs.length = n → ∀ rest, markAt ')' (itemsAt cs).2 = some rest →
    Reading (.items (itemsAt cs).1) cs rest

theorem reading_of_valueAt {cs rest : List Char} {v : Value}
    (ih : ∀ m < cs.length, HasReadings m) (h : valueAt (skip cs) = some (v, rest)) :
  Reading (.value v) cs rest
  := by
  by_cases hblock : ∃ body, skip cs = '{' :: body
  · obtain ⟨body, hskip⟩ := hblock
    have hopen := markAt_of_skip hskip
    rw [hskip, valueAt_block, Option.map_eq_some_iff] at h
    obtain ⟨rest, hclose, heq⟩ := h
    cases heq
    exact .block hopen ((ih body.length (length_of_markAt hopen)).entries body rfl) hclose
  · by_cases hlist : ∃ body, skip cs = '(' :: body
    · obtain ⟨body, hskip⟩ := hlist
      have hopen := markAt_of_skip hskip
      rw [hskip, valueAt_list, Option.map_eq_some_iff] at h
      obtain ⟨rest, hclose, heq⟩ := h
      cases heq
      exact .list hopen ((ih body.length (length_of_markAt hopen)).items body rfl rest hclose)
    · rw [valueAt_word, Option.map_eq_some_iff] at h
      · obtain ⟨⟨w, rest⟩, hword, heq⟩ := h
        cases heq
        exact .word hword
      · intro c hc
        obtain ⟨more, hmore⟩ := List.head?_eq_some_iff.mp (Option.mem_def.mp hc)
        constructor
        · rintro rfl
          exact hblock ⟨more, hmore⟩
        · rintro rfl
          exact hlist ⟨more, hmore⟩

theorem reading_of_entryAt {cs rest : List Char} {e : String × Value}
    (ih : ∀ m < cs.length, HasReadings m) (h : entryAt (skip cs) = some (e, rest)) :
  Reading (.entry e) cs rest
  := by
  rw [entryAt_eq] at h
  split at h
  · cases h
  · rename_i key next hkey
    have hnext := length_of_wordAt hkey
    have hskip := length_skip cs
    split at h
    · rename_i hmark
      cases h
      exact .missing hkey (markAt_of_skip hmark)
    · split at h
      · cases h
      · rename_i v left hvalue
        have hreading := (ih next.length (by omega)).value next rfl v left hvalue
        split at h
        · rename_i hobject
          cases h
          exact .braced hkey hreading hobject
        · rename_i hobject
          rw [Option.map_eq_some_iff] at h
          obtain ⟨rest, hmark, heq⟩ := h
          cases heq
          exact .ended hkey hreading (by simpa using hobject) hmark

/-- By induction on the length of the text. -/
theorem hasReadings (n : Nat) :
  HasReadings n
  := by
  induction n using Nat.strong_induction_on with
  | h n ih =>
    constructor
    case value =>
      rintro cs rfl v rest h
      exact reading_of_valueAt ih h
    case entry =>
      rintro cs rfl e rest h
      exact reading_of_entryAt ih h
    case entries =>
      rintro cs rfl
      rw [entriesAt_eq]
      split
      · exact .last
      · rename_i e rest hentry
        have hrest := length_of_entryAt hentry
        have hskip := length_skip cs
        exact .next (reading_of_entryAt ih hentry) ((ih rest.length (by omega)).entries rest rfl)
    case items =>
      rintro cs rfl rest h
      rw [itemsAt_eq] at h ⊢
      split at h
      · exact .closing h
      · rename_i v next hvalue
        have hnext := length_of_valueAt hvalue
        have hbehind := length_behind ',' next
        have hskip := length_skip cs
        exact .item (reading_of_valueAt ih hvalue)
          ((ih (behind ',' next).length (by omega)).items _ rfl rest h)

theorem reading_entriesAt (cs : List Char) :
  Reading (.entries (entriesAt cs).1) cs (entriesAt cs).2
  := (hasReadings cs.length).entries cs rfl

/-! ## What readings leave -/

theorem Separates.suffix {cs rest : List Char} (h : Separates cs rest) :
  rest <:+ cs
  := by
  cases h with
  | blank _ => exact List.suffix_cons _ _
  | line _ _ => exact List.suffix_append _ _
  | @block body rest _ =>
    exact ⟨'/' :: '*' :: (body ++ ['*', '/']), by simp⟩

theorem suffix_skip (cs : List Char) :
  skip cs <:+ cs
  := by
  fun_induction skip cs with
  | case1 cs rest h ih => exact ih.trans (afterSeparator?_eq_some_iff.mp h).suffix
  | case2 cs h => exact List.suffix_refl cs

theorem suffix_of_wordAt {cs rest : List Char} {w : Word} (h : wordAt cs = some (w, rest)) :
  rest <:+ cs
  := by
  cases wordAt_eq_some_iff.mp h with
  | @quoted quote s rest _ _ => exact ⟨quote :: (s ++ [quote]), by simp⟩
  | bare _ _ _ => exact List.suffix_append _ _

theorem suffix_of_markAt {mark : Char} {cs rest : List Char} (h : markAt mark cs = some rest) :
  rest <:+ cs
  := by
  have hskip := suffix_skip cs
  rw [markAt_eq_some_iff.mp h] at hskip
  exact (List.suffix_cons mark rest).trans hskip

theorem suffix_behind (mark : Char) (cs : List Char) :
  behind mark cs <:+ cs
  := by
  rw [behind]
  cases hmark : markAt mark cs with
  | none => exact List.suffix_refl cs
  | some rest => exact suffix_of_markAt hmark

/-- A reading leaves an end of the text. -/
theorem Reading.suffix {form : Form} {cs rest : List Char} (h : Reading form cs rest) :
  rest <:+ cs
  := by
  induction h with
  | @word w cs rest h => exact (suffix_of_wordAt h).trans (suffix_skip cs)
  | list hopen _ ih => exact ih.trans (suffix_of_markAt hopen)
  | block hopen _ hclose ih =>
    exact (suffix_of_markAt hclose).trans (ih.trans (suffix_of_markAt hopen))
  | closing h => exact suffix_of_markAt h
  | @item v vs cs next rest _ _ ih ihs => exact ihs.trans ((suffix_behind ',' next).trans ih)
  | @missing key cs next rest hkey hmark =>
    exact (suffix_of_markAt hmark).trans ((suffix_of_wordAt hkey).trans (suffix_skip cs))
  | @ended key v cs next left rest hkey _ _ hmark ih =>
    exact (suffix_of_markAt hmark).trans
      (ih.trans ((suffix_of_wordAt hkey).trans (suffix_skip cs)))
  | @braced key v cs next left hkey _ _ ih =>
    exact (suffix_behind ';' left).trans
      (ih.trans ((suffix_of_wordAt hkey).trans (suffix_skip cs)))
  | last => exact List.suffix_refl _
  | next _ _ ih ihs => exact ihs.trans ih

end Cosim.Dictionary
