import Cosim.Proofs.Dictionary.Derivation

/-!
# Texts that are cut off

A text is cut off at a place where no blank or comment starts.  Whatever is read in front of that
place is read from the front alone as well, with one exception.  A carriage return behind the place
can keep a line from being a comment, so that the mark of the comment starts a bare word.  In the
front alone the same line is a comment.
-/

namespace Cosim.Dictionary

variable {x y r : List Char}

/-- A text can be cut in front of the end of what it ends with. -/
theorem eq_append_of_suffix {z : List Char} (h : y ++ r <:+ z) :
  ∃ x, z = x ++ r
  := by
  obtain ⟨front, rfl⟩ := h
  exact ⟨front ++ y, (List.append_assoc front y r).symm⟩

/-! ## Blanks and comments -/

/-- Where no blank starts, no line ends. -/
theorem StartsLine.of_append (hr : afterSeparator? r = none) (h : StartsLine (y ++ r)) :
  y = [] ∨ StartsLine y
  := by
  have hbreak {more : List Char} : r ≠ '\n' :: more := by
    rintro rfl
    cases hr
  cases y with
  | nil => exact .inl rfl
  | cons c y =>
    right
    obtain ⟨more, hmore⟩ | ⟨more, hmore⟩ := h
    · rw [List.singleton_append, List.cons_append, List.cons.injEq] at hmore
      exact .inl ⟨y, by rw [hmore.1]; rfl⟩
    · rw [List.cons_append, List.singleton_append, List.cons_append, List.cons.injEq] at hmore
      cases y with
      | nil => exact absurd hmore.2.symm hbreak
      | cons d y =>
        rw [List.cons_append, List.cons.injEq] at hmore
        exact .inr ⟨y, by rw [hmore.1, hmore.2.1]; rfl⟩

/-- A blank or a comment that ends in front of the place where the text is cut off. -/
theorem afterSeparator?_cut (hr : afterSeparator? r = none)
    (h : afterSeparator? (x ++ r) = some (y ++ r)) :
  afterSeparator? x = some y
  := by
  rw [afterSeparator?_eq_some_iff] at h ⊢
  generalize hcs : x ++ r = cs at h
  generalize hrest : y ++ r = rest at h
  cases h with
  | @blank c rest hspace =>
    subst hrest
    rw [← List.cons_append] at hcs
    rw [List.append_cancel_right hcs]
    exact .blank hspace
  | @line comment rest hcomment hstarts =>
    subst hrest
    rw [← List.append_assoc] at hcs
    rw [List.append_cancel_right hcs]
    apply Separates.line hcomment
    obtain hnil | hstarts := hstarts
    · exact .inl (List.append_eq_nil_iff.mp hnil).1
    · exact hstarts.of_append hr
  | @block body rest hbody =>
    subst hrest
    have hx : x ++ r = ('/' :: '*' :: (body ++ '*' :: '/' :: y)) ++ r := by
      rw [hcs]
      simp
    rw [List.append_cancel_right hx]
    exact .block hbody

/-- What starts no blank or comment, unless its line is a comment without what follows. -/
theorem afterSeparator?_eq_none_of_append (h : afterSeparator? (x ++ r) = none)
    (hx : ¬ LineComment x) :
  afterSeparator? x = none
  := by
  cases hsome : afterSeparator? x with
  | none => rfl
  | some y =>
    rw [afterSeparator?_append r hsome (.inr hx)] at h
    cases h

/-- What is skipped in front of an end is skipped without it, unless what is left would then be a
comment. -/
theorem skip_cut (hr : afterSeparator? r = none) (h : skip (x ++ r) = y ++ r)
    (hy : ¬ LineComment y) :
  skip x = y
  := by
  generalize hcs : x ++ r = cs at h
  fun_induction skip cs generalizing x with
  | case1 cs rest hrest ih =>
    have hsuffix := suffix_skip rest
    rw [h] at hsuffix
    obtain ⟨x', rfl⟩ := eq_append_of_suffix hsuffix
    rw [← hcs] at hrest
    rw [skip_of_some (afterSeparator?_cut hr hrest), ih rfl h]
  | case2 cs hnone =>
    subst h
    obtain rfl := List.append_cancel_right hcs
    exact skip_of_none (afterSeparator?_eq_none_of_append hnone hy)

/-- What is left behind blanks and comments starts none. -/
theorem afterSeparator?_skip (cs : List Char) :
  afterSeparator? (skip cs) = none
  := by
  fun_induction skip cs with
  | case1 cs rest h ih => exact ih
  | case2 cs h => exact h

/-! ## Words and marks -/

/-- What ends a word does so without what is behind it. -/
theorem Ends.of_append (h : Ends (y ++ r)) :
  Ends y
  := by
  intro c hc
  obtain ⟨more, rfl⟩ := List.head?_eq_some_iff.mp (Option.mem_def.mp hc)
  exact h c rfl

/-- A word that is read in front of an end is read without it. -/
theorem wordAt_cut {w : Word} (h : wordAt (x ++ r) = some (w, y ++ r)) :
  wordAt x = some (w, y)
  := by
  rw [wordAt_eq_some_iff] at h ⊢
  generalize hcs : x ++ r = cs at h
  generalize hrest : y ++ r = rest at h
  cases h with
  | @quoted quote s rest hquote hs =>
    subst hrest
    have hx : x ++ r = (quote :: (s ++ quote :: y)) ++ r := by
      rw [hcs]
      simp
    rw [List.append_cancel_right hx]
    exact .quoted hquote hs
  | @bare s rest hne hs hends =>
    subst hrest
    rw [← List.append_assoc] at hcs
    rw [List.append_cancel_right hcs]
    exact .bare hne hs hends.of_append

/-- A text is no comment that begins like none. -/
theorem not_lineComment_cons {c : Char} (hslash : c ≠ '/') (hhash : c ≠ '#') :
  ¬ LineComment (c :: y)
  := by
  intro h
  cases h with
  | slashes _ _ => exact hslash rfl
  | hash _ _ => exact hhash rfl

variable {mark : Char}

/-- The marks of dictionaries other than quotes. -/
def IsMark (c : Char) : Prop := c ∈ ['{', '}', '(', ')', ';', ',']

/-- A mark begins no comment. -/
theorem IsMark.not_lineComment (hmark : IsMark mark) :
  ¬ LineComment (mark :: y)
  := by
  apply not_lineComment_cons <;> rintro rfl <;> simp [IsMark] at hmark

/-- A mark is no separator. -/
theorem IsMark.afterSeparator?_eq (hmark : IsMark mark) (cs : List Char) :
  afterSeparator? (mark :: cs) = none
  := by
  simp only [IsMark, List.mem_cons, List.not_mem_nil, or_false] at hmark
  obtain rfl | rfl | rfl | rfl | rfl | rfl := hmark <;> rfl

/-- A mark that is read in front of an end is read without it. -/
theorem markAt_cut (hmark : IsMark mark) (hr : afterSeparator? r = none)
    (h : markAt mark (x ++ r) = some (y ++ r)) :
  markAt mark x = some y
  := by
  rw [markAt_eq_some_iff] at h ⊢
  rw [← List.cons_append] at h
  exact skip_cut hr h hmark.not_lineComment

/-- A mark in a text stands there whatever follows the text. -/
theorem markAt_append (hmark : IsMark mark) (h : markAt mark x = some y) :
  markAt mark (x ++ r) = some (y ++ r)
  := by
  rw [markAt_eq_some_iff] at h ⊢
  fun_induction skip x with
  | case1 x rest hrest ih =>
    have hne : rest ≠ [] := by
      rintro rfl
      rw [skip_of_none rfl] at h
      cases h
    rw [skip_of_some (afterSeparator?_append r hrest (.inl hne)), ih h]
  | case2 x hnone =>
    subst h
    exact skip_of_none (hmark.afterSeparator?_eq _)

/-- A mark that may be missing is read or missed in front of an end as without it. -/
theorem behind_cut (hmark : IsMark mark) (hr : afterSeparator? r = none)
    (h : behind mark (x ++ r) = y ++ r) :
  behind mark x = y
  := by
  rw [behind] at h ⊢
  cases hsome : markAt mark (x ++ r) with
  | some rest =>
    rw [hsome, Option.getD_some] at h
    subst h
    rw [markAt_cut hmark hr hsome, Option.getD_some]
  | none =>
    rw [hsome, Option.getD_none] at h
    obtain rfl := List.append_cancel_right h
    cases hx : markAt mark x with
    | none => rw [Option.getD_none]
    | some rest =>
      rw [markAt_append hmark hx] at hsome
      cases hsome

/-! ## Places -/

/-- The places of a text where words and marks stand, one behind another, from the first one on. -/
inductive Place (text : List Char) : List Char → Prop where
  | start : Place text (skip text)
  | word {cs rest : List Char} {w : Word} : Place text cs → wordAt cs = some (w, rest) →
    Place text (skip rest)
  | mark {c : Char} {rest : List Char} : Place text (c :: rest) → IsMark c →
    Place text (skip rest)

variable {text : List Char}

/-- Behind a mark there is the next place. -/
theorem Place.markAt {cs rest : List Char} (h : Place text (skip cs)) (hmark : IsMark mark)
    (hrest : markAt mark cs = some rest) :
  Place text (skip rest)
  := by
  rw [markAt_eq_some_iff.mp hrest] at h
  exact h.mark hmark

/-- Behind a mark that may be missing there is a place. -/
theorem Place.behind {cs : List Char} (h : Place text (skip cs)) (hmark : IsMark mark) :
  Place text (skip (behind mark cs))
  := by
  rw [Dictionary.behind]
  cases hrest : Dictionary.markAt mark cs with
  | none => exact h
  | some rest => exact h.markAt hmark hrest

/-- From a place, a form is read up to a place. -/
theorem Reading.place {form : Form} {cs rest : List Char} (h : Reading form cs rest)
    (hplace : Place text (skip cs)) :
  Place text (skip rest)
  := by
  induction h with
  | word h => exact hplace.word h
  | list hopen _ ih => exact ih (hplace.markAt (by simp [IsMark]) hopen)
  | block hopen _ hclose ih =>
    exact (ih (hplace.markAt (by simp [IsMark]) hopen)).markAt (by simp [IsMark]) hclose
  | closing h => exact hplace.markAt (by simp [IsMark]) h
  | item _ _ ih ihs => exact ihs ((ih hplace).behind (by simp [IsMark]))
  | missing hkey hmark => exact (hplace.word hkey).markAt (by simp [IsMark]) hmark
  | ended hkey _ _ hmark ih => exact (ih (hplace.word hkey)).markAt (by simp [IsMark]) hmark
  | braced hkey _ _ ih => exact (ih (hplace.word hkey)).behind (by simp [IsMark])
  | last => exact hplace
  | next _ _ ih ihs => exact ihs (ih hplace)

/-! ## Readings -/

/-- A text can be cut off in front of its end: no line that starts with a word in front of the end
would be a comment without it. -/
def Separable (text r : List Char) : Prop := ∀ q, Place text (q ++ r) → ¬ LineComment q

/-- Every place is an end of the text. -/
theorem Place.suffix {cs : List Char} (h : Place text cs) :
  cs <:+ text
  := by
  induction h with
  | start => exact suffix_skip text
  | @word cs rest w _ hword ih => exact (suffix_skip rest).trans ((suffix_of_wordAt hword).trans ih)
  | @mark c rest _ _ ih => exact (suffix_skip rest).trans ((List.suffix_cons c rest).trans ih)

/-- A text can be cut off behind a front that holds no mark of a comment in a line. -/
theorem separable_of_not_mem {front : List Char} (htext : text = front ++ r) (hhash : '#' ∉ front)
    (hslash : '/' ∉ front) :
  Separable text r
  := by
  intro q hplace hcomment
  obtain ⟨before, hbefore⟩ := hplace.suffix
  rw [htext, ← List.append_assoc] at hbefore
  rw [← List.append_cancel_right hbefore, List.mem_append, not_or] at hhash hslash
  cases hcomment with
  | slashes _ _ => exact hslash.2 List.mem_cons_self
  | hash _ _ => exact hhash.2 List.mem_cons_self

/-- What is read in front of the place where a text is cut off is read from the front alone, by
induction on the reading.  All that it leaves on the way goes on beyond that place. -/
theorem Reading.cut {form : Form} {cs rest : List Char} (h : Reading form cs rest)
    (hr : afterSeparator? r = none) (hseparable : Separable text r) (hplace : Place text (skip cs))
    (hcs : cs = x ++ r) (hrest : rest = y ++ r) :
  Reading form x y
  := by
  have hskip {x y : List Char} (hplace : Place text (skip (x ++ r)))
      (h : skip (x ++ r) = y ++ r) : skip x = y :=
    skip_cut hr h (hseparable y (h ▸ hplace))
  have hword {x y : List Char} {w : Word} (hplace : Place text (skip (x ++ r)))
      (h : wordAt (skip (x ++ r)) = some (w, y ++ r)) : wordAt (skip x) = some (w, y) := by
    obtain ⟨z, hz⟩ := eq_append_of_suffix (suffix_of_wordAt h)
    rw [hskip hplace hz]
    rw [hz] at h
    exact wordAt_cut h
  -- what is left between two parts of a reading ends with what the reading leaves, and so with `r`
  induction h generalizing x y with
  | word h =>
    subst hcs hrest
    exact .word (hword hplace h)
  | list hopen hitems ih =>
    subst hcs hrest
    obtain ⟨body, rfl⟩ := eq_append_of_suffix hitems.suffix
    exact .list (markAt_cut (by simp [IsMark]) hr hopen)
      (ih (hplace.markAt (by simp [IsMark]) hopen) rfl rfl)
  | block hopen hentries hclose ih =>
    subst hcs hrest
    obtain ⟨left, rfl⟩ := eq_append_of_suffix (suffix_of_markAt hclose)
    obtain ⟨body, rfl⟩ := eq_append_of_suffix hentries.suffix
    exact .block (markAt_cut (by simp [IsMark]) hr hopen)
      (ih (hplace.markAt (by simp [IsMark]) hopen) rfl rfl)
      (markAt_cut (by simp [IsMark]) hr hclose)
  | closing h =>
    subst hcs hrest
    exact .closing (markAt_cut (by simp [IsMark]) hr h)
  | @item v vs cs next rest hvalue hitems ih ihs =>
    subst hcs hrest
    obtain ⟨more, hmore⟩ := eq_append_of_suffix hitems.suffix
    obtain ⟨next, rfl⟩ := eq_append_of_suffix (hmore ▸ suffix_behind ',' next)
    have hnext := hvalue.place hplace
    apply Reading.item (ih hplace rfl rfl)
    rw [behind_cut (by simp [IsMark]) hr hmore]
    exact ihs (hnext.behind (by simp [IsMark])) hmore rfl
  | missing hkey hmark =>
    subst hcs hrest
    obtain ⟨next, rfl⟩ := eq_append_of_suffix (suffix_of_markAt hmark)
    exact .missing (hword hplace hkey) (markAt_cut (by simp [IsMark]) hr hmark)
  | ended hkey hvalue hobject hmark ih =>
    subst hcs hrest
    obtain ⟨left, rfl⟩ := eq_append_of_suffix (suffix_of_markAt hmark)
    obtain ⟨next, rfl⟩ := eq_append_of_suffix hvalue.suffix
    exact .ended (hword hplace hkey) (ih (hplace.word hkey) rfl rfl) hobject
      (markAt_cut (by simp [IsMark]) hr hmark)
  | @braced key v cs next left hkey hvalue hobject ih =>
    subst hcs
    obtain ⟨left, rfl⟩ := eq_append_of_suffix (hrest ▸ suffix_behind ';' left)
    obtain ⟨next, rfl⟩ := eq_append_of_suffix hvalue.suffix
    rw [← behind_cut (by simp [IsMark]) hr hrest]
    exact .braced (hword hplace hkey) (ih (hplace.word hkey) rfl rfl) hobject
  | last =>
    subst hcs
    obtain rfl := List.append_cancel_right hrest
    exact .last
  | next hentry hentries ih ihs =>
    subst hcs hrest
    obtain ⟨next, rfl⟩ := eq_append_of_suffix hentries.suffix
    exact .next (ih hplace rfl rfl) (ihs (hentry.place hplace) rfl rfl)

end Cosim.Dictionary
