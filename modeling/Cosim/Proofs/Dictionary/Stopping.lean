import Cosim.Failure
import Cosim.Proofs.Dictionary.Cutting

/-!
# Where reading stops

A text is read as far as outermost entries follow one another from its start on.  The place where
that stops is the one that a failure names.  However deep inside the next entry the cause lies, the
place is the start of that entry.  What stands in front of the place is a text of its own, with the
same entries.
-/

namespace Cosim.Dictionary

/-! ## Runs -/

/-- Entries are read one after another from the start of a text, which then goes on, behind blanks
and comments, with another. -/
inductive Run : List Char → List (String × Value) → List Char → Prop where
  | nil {cs : List Char} : Run cs [] (skip cs)
  | cons {e : String × Value} {es : List (String × Value)} {cs next rest : List Char} :
    entryAt (skip cs) = some (e, next) → Run next es rest → Run cs (e :: es) rest

/-- A text in two parts: the front, with the longest run of entries from the start, and the rest. -/
structure IsLongestRun (text : List Char) (es : List (String × Value)) (front rest : List Char) :
    Prop where
  eq_append : text = front ++ rest
  run : Run text es rest
  longest : ∀ es' rest', Run text es' rest' → es'.length ≤ es.length

variable {es : List (String × Value)} {cs front rest : List Char}

theorem entriesAt_of_entryAt {e : String × Value} {next : List Char}
    (h : entryAt (skip cs) = some (e, next)) :
  entriesAt cs = (e :: (entriesAt next).1, (entriesAt next).2)
  := by rw [entriesAt_eq, h]

theorem entriesAt_of_none (h : entryAt (skip cs) = none) :
  entriesAt cs = ([], cs)
  := by rw [entriesAt_eq, h]

/-- The entries that are read make a run behind which there is no entry, by induction on the length
of the text. -/
theorem run_entriesAt (cs : List Char) :
  Run cs (entriesAt cs).1 (skip (entriesAt cs).2) ∧ entryAt (skip (entriesAt cs).2) = none
  := by
  induction hn : cs.length using Nat.strong_induction_on generalizing cs with
  | h n ih =>
    subst hn
    cases hentry : entryAt (skip cs) with
    | none =>
      rw [entriesAt_of_none hentry]
      exact ⟨.nil, hentry⟩
    | some found =>
      obtain ⟨e, next⟩ := found
      have hlength := length_of_entryAt hentry
      have hskip := length_skip cs
      obtain ⟨hrun, hnone⟩ := ih next.length (by omega) next rfl
      rw [entriesAt_of_entryAt hentry]
      exact ⟨.cons hentry hrun, hnone⟩

/-- Every run is the beginning of all entries that are read. -/
theorem Run.exists_append (h : Run cs es rest) :
  ∃ more, (entriesAt cs).1 = es ++ more ∧
    ((more = [] ∨ entryAt rest = none) → more = [] ∧ rest = skip (entriesAt cs).2)
  := by
  induction h with
  | @nil cs =>
    refine ⟨(entriesAt cs).1, rfl, ?_⟩
    intro hend
    cases hentry : entryAt (skip cs) with
    | none =>
      rw [entriesAt_of_none hentry]
      exact ⟨rfl, rfl⟩
    | some found =>
      rw [entriesAt_of_entryAt hentry, hentry] at hend
      obtain hend | hend := hend <;> cases hend
  | cons hentry _ ih =>
    obtain ⟨more, hmore, hend⟩ := ih
    rw [entriesAt_of_entryAt hentry]
    exact ⟨more, by rw [hmore, List.cons_append], hend⟩

/-- A run ends where no entry follows exactly if it is the longest one. -/
theorem isLongestRun_iff {text : List Char} :
  IsLongestRun text es front rest ↔
    text = front ++ rest ∧ Run text es rest ∧ entryAt rest = none
  := by
  obtain ⟨hall, hnone⟩ := run_entriesAt text
  constructor
  · rintro ⟨htext, hrun, hlongest⟩
    refine ⟨htext, hrun, ?_⟩
    obtain ⟨more, hmore, hend⟩ := hrun.exists_append
    have hlength := hlongest _ _ hall
    rw [hmore, List.length_append] at hlength
    have hnil : more = [] := List.length_eq_zero_iff.mp (by omega)
    rw [(hend (.inl hnil)).2]
    exact hnone
  · rintro ⟨htext, hrun, hrest⟩
    refine ⟨htext, hrun, ?_⟩
    intro es' rest' hrun'
    obtain ⟨more, hmore, hend⟩ := hrun.exists_append
    obtain ⟨more', hmore', -⟩ := hrun'.exists_append
    rw [(hend (.inr hrest)).1, List.append_nil] at hmore
    rw [← hmore, hmore', List.length_append]
    omega

theorem exists_isLongestRun (text : List Char) :
  ∃ es front rest, IsLongestRun text es front rest
  := by
  obtain ⟨hrun, hnone⟩ := run_entriesAt text
  obtain ⟨front, hfront⟩ :=
    (suffix_skip (entriesAt text).2).trans (reading_entriesAt text).suffix
  exact ⟨_, front, _, isLongestRun_iff.mpr ⟨hfront.symm, hrun, hnone⟩⟩

theorem IsLongestRun.entriesAt_eq {text : List Char} (h : IsLongestRun text es front rest) :
  (entriesAt text).1 = es ∧ skip (entriesAt text).2 = rest
  := by
  obtain ⟨-, hrun, hnone⟩ := isLongestRun_iff.mp h
  obtain ⟨more, hmore, hend⟩ := hrun.exists_append
  obtain ⟨rfl, hrest⟩ := hend (.inr hnone)
  exact ⟨by rw [hmore, List.append_nil], hrest.symm⟩

/-! ## Failures -/

theorem document_eq_error {text : String} {stop : Stop} (h : document text = .error stop)
    (htext : text.toList = front ++ rest) (hrest : skip (entriesAt text.toList).2 = rest) :
  stop = ⟨front.count '\n' + 1, String.ofList (rest.take 40)⟩
  := by
  simp only [entriesAt] at hrest
  simp only [document, hrest] at h
  split at h
  · cases h
  · cases h
    rw [htext, List.length_append, Nat.add_sub_cancel_right, List.take_left]

/-- The front of a text is a text with the same entries if it can be cut off. -/
theorem IsLongestRun.entriesAt_front {text : List Char} (h : IsLongestRun text es front rest)
    (hseparable : Separable text rest) :
  (entriesAt front).1 = es ∧ skip (entriesAt front).2 = []
  := by
  obtain ⟨hentries, hleft⟩ := h.entriesAt_eq
  have hrest : afterSeparator? rest = none := by
    rw [← hleft]
    apply afterSeparator?_skip
  obtain ⟨left, hleft'⟩ : ∃ left, (entriesAt text).2 = left ++ rest := by
    obtain ⟨left, hsuffix⟩ := suffix_skip (entriesAt text).2
    exact ⟨left, by rw [← hsuffix, hleft]⟩
  have hreading := (reading_entriesAt text).cut hrest hseparable .start h.eq_append hleft'
  have hskip : skip left = [] := by
    apply skip_cut hrest
    · rw [← hleft', hleft, List.nil_append]
    · rintro ⟨⟩
  rw [hreading.found (by rw [hskip, entryAt_nil])]
  exact ⟨hentries, hskip⟩

/-- What the longest run of entries says of a text.  The text is a dictionary if there is no rest,
and else the failure names the line and the first characters of the rest, where no entry, blank or
comment starts.  The front is a dictionary with the same entries. -/
structure StopsAt (text : String) (es : List (String × Value)) (front rest : List Char) : Prop where
  eq_ok_iff : ∀ d, document text = .ok d ↔ rest = [] ∧ d = Entries.ofPairs es
  front_read : Separable text.toList rest →
    (entriesAt front).1 = es ∧ document (String.ofList front) = .ok (Entries.ofPairs es)
  no_separator : afterSeparator? rest = none
  no_entry : entryAt rest = none
  message : ∀ stop, document text = .error stop →
    stop = ⟨front.count '\n' + 1, String.ofList (rest.take 40)⟩ ∧
    (DictionaryError.syntactic stop).message =
      some ("unexpected input at line " ++ toString (front.count '\n' + 1) ++ ": " ++
        Text.quoted (String.ofList (rest.take 40)))

theorem document_stopsAt (text : String) :
  (∃ es front rest, IsLongestRun text.toList es front rest) ∧
    ∀ es front rest, IsLongestRun text.toList es front rest → StopsAt text es front rest
  := by
  refine ⟨exists_isLongestRun text.toList, ?_⟩
  intro es front rest h
  obtain ⟨hentries, hleft⟩ := h.entriesAt_eq
  constructor
  case eq_ok_iff =>
    intro d
    rw [document_eq_ok, hentries, hleft, eq_comm (a := d)]
  case front_read =>
    intro hseparable
    obtain ⟨hfront, hnil⟩ := h.entriesAt_front hseparable
    refine ⟨hfront, ?_⟩
    rw [document_eq_ok, String.toList_ofList, hfront]
    exact ⟨hnil, rfl⟩
  case no_separator =>
    rw [← hleft]
    apply afterSeparator?_skip
  case no_entry => exact (isLongestRun_iff.mp h).2.2
  case message =>
    intro stop hstop
    obtain rfl := document_eq_error hstop h.eq_append hleft
    exact ⟨rfl, rfl⟩

theorem entryAt_eq_none_of_valueAt {w : Word} {next : List Char} {c : Char} {body : List Char}
    (hword : wordAt cs = some (w, next)) (hnext : skip next = c :: body) (hc : c ≠ ';')
    (hvalue : valueAt (c :: body) = none) :
  entryAt cs = none
  := by
  rw [entryAt_eq, hword]
  simp only [hnext]
  split
  · rename_i heq
    cases heq
    exact absurd rfl hc
  · rw [hvalue]

/-- A failure inside a list is reported at the start of the entry, here in the second line. -/
theorem document_stopsAt_list :
  IsLongestRun "a 1;\n b (;".toList [("a", .number (.int 1))] "a 1;\n ".toList "b (;".toList ∧
    StopsAt "a 1;\n b (;" [("a", .number (.int 1))] "a 1;\n ".toList "b (;".toList ∧
    document "a 1;\n " = .ok [("a", .number (.int 1))]
  := by
  have hkey : wordAt (skip "a 1;\n b (;".toList) = some (.bare "a", " 1;\n b (;".toList) := by
    rw [skip_of_none rfl]
    rfl
  have hone : wordAt (skip " 1;\n b (;".toList) = some (.bare "1", ";\n b (;".toList) := by
    rw [show skip " 1;\n b (;".toList = skip "1;\n b (;".toList from skip_space _, skip_of_none rfl]
    rfl
  have hmark : markAt ';' ";\n b (;".toList = some "\n b (;".toList :=
    markAt_of_skip (skip_of_none rfl)
  have hentry : entryAt (skip "a 1;\n b (;".toList) =
      some (("a", .number (.int 1)), "\n b (;".toList) :=
    (Reading.ended hkey (.word hone) rfl hmark).found
  have hrest : skip "\n b (;".toList = "b (;".toList := by
    rw [show skip "\n b (;".toList = skip " b (;".toList from skip_newline _,
      show skip " b (;".toList = skip "b (;".toList from skip_space _, skip_of_none rfl]
  have hlist : valueAt ['(', ';'] = none := by
    have hskip : skip [';'] = [';'] := skip_of_none rfl
    rw [valueAt_list, itemsAt_eq, hskip, valueAt_eq_none (by simp)]
    simp [markAt, hskip]
  have hnone : entryAt "b (;".toList = none :=
    entryAt_eq_none_of_valueAt (w := .bare "b") rfl ((skip_space _).trans (skip_of_none rfl))
      (by decide) hlist
  have hrun : IsLongestRun "a 1;\n b (;".toList [("a", .number (.int 1))] "a 1;\n ".toList
      "b (;".toList :=
    isLongestRun_iff.mpr ⟨rfl, .cons hentry (hrest ▸ .nil), hnone⟩
  have hseparable : Separable "a 1;\n b (;".toList "b (;".toList :=
    separable_of_not_mem hrun.eq_append (by decide) (by decide)
  have hstops := (document_stopsAt "a 1;\n b (;").2 _ _ _ hrun
  exact ⟨hrun, hstops, (hstops.front_read hseparable).2⟩

/-- Where a carriage return in the rest keeps a line from being a comment, the front alone is no
dictionary. -/
theorem document_front_hidden :
  IsLongestRun "a #b;x\ry".toList [("a", .text "#b")] "a #b;".toList "x\ry".toList ∧
  ∀ d, document "a #b;" ≠ .ok d
  := by
  have hkey : wordAt (skip "a #b;x\ry".toList) = some (.bare "a", " #b;x\ry".toList) := by
    rw [skip_of_none rfl]
    rfl
  have hhash : wordAt (skip " #b;x\ry".toList) = some (.bare "#b", ";x\ry".toList) := by
    rw [show skip " #b;x\ry".toList = skip "#b;x\ry".toList from skip_space _, skip_of_none rfl]
    rfl
  have hentry : Reading (.entry ("a", .text "#b")) "a #b;x\ry".toList "x\ry".toList :=
    .ended hkey (.word hhash) rfl (markAt_of_skip (skip_of_none rfl))
  have hlast : Run "x\ry".toList [] "x\ry".toList := by
    have hnil : Run "x\ry".toList [] (skip "x\ry".toList) := .nil
    rwa [skip_of_none rfl] at hnil
  have hnone : entryAt "x\ry".toList = none := by
    have hword : wordAt "x\ry".toList = some (.bare "x", "\ry".toList) := rfl
    have hnext : skip "\ry".toList = "y".toList := (skip_of_some rfl).trans (skip_of_none rfl)
    have hvalue : valueAt "y".toList = some (.text "y", []) :=
      valueAt_of_wordAt (w := .bare "y") rfl
    have hend : skip [] = [] := skip_of_none rfl
    rw [← hnext] at hvalue
    rw [entryAt_of_valueAt hword hvalue]
    simp [Value.isObject, markAt, hend]
  refine ⟨isLongestRun_iff.mpr ⟨rfl, .cons hentry.found hlast, hnone⟩, ?_⟩
  intro d hd
  obtain ⟨hleft, -⟩ := document_eq_ok.mp hd
  have hfront : skip "a #b;".toList = "a #b;".toList := skip_of_none rfl
  have hcomment : skip " #b;".toList = [] :=
    (skip_space _).trans ((skip_of_some rfl).trans (skip_of_none rfl))
  have hword : wordAt "a #b;".toList = some (.bare "a", " #b;".toList) := rfl
  have hnil : valueAt [] = none := valueAt_word (by simp)
  have hentries : entriesAt "a #b;".toList = ([], "a #b;".toList) := by
    apply entriesAt_of_none
    rw [hfront, entryAt_eq, hword]
    simp only [hcomment, hnil]
  rw [hentries, hfront] at hleft
  cases hleft

end Cosim.Dictionary
