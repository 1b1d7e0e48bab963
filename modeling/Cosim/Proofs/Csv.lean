import Cosim.Csv
import Mathlib.Data.List.Basic

/-!
# Comma-separated values read back

`Csv.records` reads from a written text the records that were written, whatever their fields hold:
`Csv.records_write`.  The text must not begin with a byte order mark, which no reader keeps, and the
delimiter must be none of the characters that the form uses itself.
-/

namespace Cosim.Csv

/-- A character that can stand between fields. -/
structure IsDelimiter (c : Char) : Prop where
  ne_quote : c ≠ '"'
  not_lineEnd : isLineEnd c = false

theorem isDelimiter_iff {c : Char} :
  IsDelimiter c ↔ c ≠ '"' ∧ c ≠ '\r' ∧ c ≠ '\n'
  := by
  constructor
  · rintro ⟨hquote, hend⟩
    simp only [isLineEnd, Bool.or_eq_false_iff, beq_eq_false_iff_ne] at hend
    exact ⟨hquote, hend⟩
  · rintro ⟨hquote, hend⟩
    refine ⟨hquote, ?_⟩
    simpa only [isLineEnd, Bool.or_eq_false_iff, beq_eq_false_iff_ne] using hend

namespace Reading

variable {delimiter : Char} {r : Reading}

/-! ## Single characters -/

/-- A delimiter ends a field, unless it stands in quotes. -/
theorem step_delimiter (hdelimiter : IsDelimiter delimiter) (hplace : r.place ≠ .quoted) :
  step delimiter r delimiter = r.endField
  := by
  have hplain : r.plain delimiter delimiter = r.endField := if_pos (beq_self_eq_true delimiter)
  have hfirst : r.first delimiter delimiter = r.endField := by
    rw [first, if_neg (by simpa using hdelimiter.ne_quote), hplain]
  rw [step]
  split
  · rw [if_neg (by simp [hdelimiter.not_lineEnd]), hfirst]
  · exact hfirst
  · exact hplain
  · exact absurd ‹_› hplace
  · rw [if_neg (by simpa using hdelimiter.ne_quote), hplain]

/-- A line feed ends a record that has begun, unless it stands in quotes. -/
theorem step_lineFeed (hdelimiter : IsDelimiter delimiter) (hplace : r.place ≠ .quoted)
    (hstart : r.place ≠ .recordStart) :
  step delimiter r '\n' = r.endRecord
  := by
  have hne : ¬ ('\n' == delimiter) = true := by
    rw [beq_iff_eq]
    rintro rfl
    cases hdelimiter.not_lineEnd
  have hplain : r.plain delimiter '\n' = r.endRecord := by
    rw [plain, if_neg hne, if_pos (by decide)]
  have hfirst : r.first delimiter '\n' = r.endRecord := by
    rw [first, if_neg (by decide), hplain]
  rw [step]
  split
  · exact absurd ‹_› hstart
  · exact hfirst
  · exact hplain
  · exact absurd ‹_› hplace
  · rw [if_neg (by decide), hplain]

/-! ## Fields -/

/-- What quotes enclose is read as it stands, with one quote for two. -/
theorem foldl_quoted (cs : List Char) (hplace : r.place = .quoted) :
  (cs.flatMap fun c => if c == '"' then ['"', '"'] else [c]).foldl (step delimiter) r =
    { r with chars := cs.reverse ++ r.chars }
  := by
  induction cs generalizing r with
  | nil => rfl
  | cons c cs ih =>
    have hstep : (if c == '"' then ['"', '"'] else [c]).foldl (step delimiter) r =
        r.push .quoted c := by
      split
      · rename_i hc
        rw [beq_iff_eq] at hc
        simp [step, hplace, hc, push]
      · rename_i hc
        simp [step, hplace, hc]
    rw [List.flatMap_cons, List.foldl_append, hstep, ih rfl, push, List.reverse_cons,
      List.append_assoc, hplace]
    rfl

/-- What needs no quotes is read as it stands. -/
theorem foldl_unquoted {cs : List Char} (h : needsQuotes delimiter cs = false)
    (hplace : r.place = .field) :
  cs.foldl (step delimiter) r = { r with chars := cs.reverse ++ r.chars }
  := by
  induction cs generalizing r with
  | nil => rfl
  | cons c cs ih =>
    rw [needsQuotes, List.any_cons, Bool.or_eq_false_iff] at h
    obtain ⟨hc, hcs⟩ := h
    simp only [Bool.or_eq_false_iff] at hc
    have hstep : step delimiter r c = r.push .field c := by
      simp [step, hplace, plain, hc]
    rw [List.foldl_cons, hstep, ih hcs rfl, push, List.reverse_cons, List.append_assoc, hplace]
    rfl

/-- A field is read as it was written.  The reader then stands in it or behind it, or has not moved
if there was nothing to write. -/
theorem foldl_fieldText (hplace : r.place = .recordStart ∨ r.place = .fieldStart)
    (hchars : r.chars = []) (delimiter : Char) (field : String) :
  ∃ place, place ≠ .quoted ∧ (place = .recordStart → r.place = .recordStart ∧ field = "") ∧
    (fieldText delimiter field).foldl (step delimiter) r =
      { r with place := place, chars := field.toList.reverse }
  := by
  rw [fieldText]
  cases hquotes : needsQuotes delimiter field.toList with
  | true =>
    have hopen : step delimiter r '"' = { r with place := .quoted } := by
      obtain hplace | hplace := hplace
      · simp [step, hplace, first, isLineEnd]
      · simp [step, hplace, first]
    refine ⟨.quote, by decide, by simp, ?_⟩
    rw [if_pos rfl, List.cons_append, List.foldl_cons, hopen, List.foldl_append,
      foldl_quoted _ rfl, hchars, List.append_nil]
    rfl
  | false =>
    rw [if_neg (by decide)]
    cases hfield : field.toList with
    | nil =>
      refine ⟨r.place, ?_, ?_, ?_⟩
      · obtain hplace | hplace := hplace <;> simp [hplace]
      · intro hstart
        exact ⟨hstart, String.toList_eq_nil_iff.mp hfield⟩
      · rw [List.foldl_nil, List.reverse_nil, ← hchars]
    | cons c cs =>
      rw [hfield, needsQuotes, List.any_cons, Bool.or_eq_false_iff] at hquotes
      obtain ⟨hc, hcs⟩ := hquotes
      simp only [Bool.or_eq_false_iff] at hc
      have hstep : step delimiter r c = r.push .field c := by
        obtain hplace | hplace := hplace
        · simp [step, hplace, first, plain, hc]
        · simp [step, hplace, first, plain, hc]
      refine ⟨.field, by decide, by simp, ?_⟩
      rw [List.foldl_cons, hstep, foldl_unquoted hcs rfl, push, hchars, List.reverse_cons]

/-! ## Records -/

theorem fieldText_eq_nil_iff {field : String} :
  fieldText delimiter field = [] ↔ field = ""
  := by
  rw [fieldText, ← String.toList_eq_nil_iff]
  split
  · rename_i hquotes
    constructor
    · intro h
      cases h
    · intro h
      rw [h] at hquotes
      cases hquotes
  · rfl

/-- Only a single empty field is written as a blank line. -/
theorem line_eq_nil_iff {field : String} {fields : List String} :
  [delimiter].intercalate ((field :: fields).map (fieldText delimiter)) = [] ↔
    field :: fields = [""]
  := by
  cases fields with
  | nil =>
    rw [List.map_singleton, List.intercalate_singleton, fieldText_eq_nil_iff, List.singleton_inj]
  | cons next fields => simp [List.intercalate_cons_cons]

/-- The fields of a record are read one after another, by induction on them.  Only a single empty
field must not be written without quotes. -/
theorem foldl_fields {field : String} {fields : List String} (hdelimiter : IsDelimiter delimiter)
    (hplace : r.place = .recordStart ∨ r.place = .fieldStart) (hchars : r.chars = [])
    (hblank : r.place = .recordStart → field :: fields ≠ [""]) :
  ([delimiter].intercalate ((field :: fields).map (fieldText delimiter)) ++ ['\n']).foldl
      (step delimiter) r =
    ⟨.recordStart, [], [], (r.fields.reverse ++ field :: fields) :: r.records⟩
  := by
  induction fields generalizing field r with
  | nil =>
    obtain ⟨place, hquoted, hstart, hread⟩ := foldl_fieldText hplace hchars delimiter field
    have hbegun : place ≠ .recordStart := by
      intro hplace
      obtain ⟨hplace, rfl⟩ := hstart hplace
      exact hblank hplace rfl
    rw [List.map_singleton, List.intercalate_singleton, List.foldl_append, hread, List.foldl_cons,
      step_lineFeed hdelimiter hquoted hbegun]
    simp [endRecord, endField]
  | cons next fields ih =>
    obtain ⟨place, hquoted, -, hread⟩ := foldl_fieldText hplace hchars delimiter field
    rw [List.map_cons, List.map_cons, List.intercalate_cons_cons, ← List.map_cons,
      List.append_assoc, List.append_assoc, List.foldl_append, hread, List.foldl_append,
      List.foldl_cons, List.foldl_nil, step_delimiter hdelimiter hquoted,
      ih (.inr rfl) rfl (by simp [endField])]
    simp [endField]

/-- A record is read as it was written. -/
theorem foldl_recordText {record : List String} (hdelimiter : IsDelimiter delimiter)
    (hne : record ≠ []) (records : List (List String)) :
  (recordText delimiter record).foldl (step delimiter) ⟨.recordStart, [], [], records⟩ =
    ⟨.recordStart, [], [], record :: records⟩
  := by
  obtain ⟨field, fields, rfl⟩ := List.exists_cons_of_ne_nil hne
  rw [recordText]
  by_cases hblank : field :: fields = [""]
  · have hline : [delimiter].intercalate ((field :: fields).map (fieldText delimiter)) = [] :=
      line_eq_nil_iff.mpr hblank
    have hquote : step delimiter ⟨.recordStart, [], [], records⟩ '"' =
        ⟨.quoted, [], [], records⟩ := rfl
    rw [hline, hblank, List.isEmpty_nil, if_pos rfl, List.cons_append, List.foldl_cons, hquote,
      List.cons_append, List.foldl_cons, List.nil_append, List.foldl_cons,
      step_lineFeed hdelimiter (by simp [step]) (by simp [step])]
    rfl
  · have hline : [delimiter].intercalate ((field :: fields).map (fieldText delimiter)) ≠ [] :=
      mt line_eq_nil_iff.mp hblank
    rw [if_neg (by rwa [List.isEmpty_iff]),
      foldl_fields hdelimiter (.inl rfl) rfl fun _ => hblank]
    rfl

theorem foldl_records {records : List (List String)} (hdelimiter : IsDelimiter delimiter)
    (hne : ∀ record ∈ records, record ≠ []) (before : List (List String)) :
  (records.flatMap (recordText delimiter)).foldl (step delimiter) ⟨.recordStart, [], [], before⟩ =
    ⟨.recordStart, [], [], records.reverse ++ before⟩
  := by
  induction records generalizing before with
  | nil => rfl
  | cons record records ih =>
    rw [List.forall_mem_cons] at hne
    rw [List.flatMap_cons, List.foldl_append, foldl_recordText hdelimiter hne.1, ih hne.2,
      List.reverse_cons, List.append_assoc]
    rfl

end Reading

/-! ## Texts -/

/-- The mark that a reader skips in front of a text. -/
def byteOrderMark : Char := '\ufeff'

theorem head?_fieldText {delimiter c : Char} {field : String}
    (h : (fieldText delimiter field).head? = some c) :
  field.toList.head? = some c ∨ c = '"'
  := by
  rw [fieldText] at h
  split at h
  · right
    exact (Option.some.inj h).symm
  · left
    exact h

/-- A written record begins like its first field, or else with a character of the form itself. -/
theorem head?_recordText {delimiter c : Char} {field : String} {fields : List String}
    (h : (recordText delimiter (field :: fields)).head? = some c) :
  field.toList.head? = some c ∨ c = delimiter ∨ c = '"'
  := by
  have hline (h : ([delimiter].intercalate ((field :: fields).map (fieldText delimiter))).head? =
      some c) : field.toList.head? = some c ∨ c = delimiter ∨ c = '"' := by
    cases fields with
    | nil =>
      rw [List.map_singleton, List.intercalate_singleton] at h
      exact (head?_fieldText h).imp_right .inr
    | cons next fields =>
      rw [List.map_cons, List.map_cons, List.intercalate_cons_cons, List.append_assoc,
        List.head?_append, Option.or_eq_some_iff] at h
      obtain h | ⟨-, h⟩ := h
      · exact (head?_fieldText h).imp_right .inr
      · exact .inr (.inl (Option.some.inj h).symm)
  rw [recordText, List.head?_append, Option.or_eq_some_iff] at h
  obtain h | ⟨hnone, -⟩ := h
  · split at h
    · exact .inr (.inr (Option.some.inj h).symm)
    · exact hline h
  · split at hnone
    · cases hnone
    · rename_i hempty
      exact absurd (List.isEmpty_iff.mpr (List.head?_eq_none_iff.mp hnone)) hempty

/-- A written text does not begin with a byte order mark if its first field does not. -/
theorem head?_write_ne {delimiter : Char} {records : List (List String)}
    (hmark : delimiter ≠ byteOrderMark) (hne : ∀ record ∈ records, record ≠ [])
    (hfirst : ∀ record ∈ records.head?, ∀ field ∈ record.head?,
      field.toList.head? ≠ some byteOrderMark) :
  (records.flatMap (recordText delimiter)).head? ≠ some byteOrderMark
  := by
  intro h
  cases records with
  | nil => cases h
  | cons record records =>
    obtain ⟨field, fields, rfl⟩ := List.exists_cons_of_ne_nil (hne record List.mem_cons_self)
    have htext : recordText delimiter (field :: fields) ≠ [] := by simp [recordText]
    rw [List.flatMap_cons, List.head?_append_of_ne_nil _ htext] at h
    obtain h | rfl | h := head?_recordText h
    · exact hfirst _ rfl field rfl h
    · exact hmark rfl
    · cases h

/-- What was written is read, whatever the fields hold. -/
theorem records_write {delimiter : Char} {records : List (List String)}
    (hdelimiter : IsDelimiter delimiter) (hmark : delimiter ≠ byteOrderMark)
    (hne : ∀ record ∈ records, record ≠ [])
    (hfirst : ∀ record ∈ records.head?, ∀ field ∈ record.head?,
      field.toList.head? ≠ some byteOrderMark) :
  Csv.records delimiter (write delimiter records) = records
  := by
  have hhead := head?_write_ne hmark hne hfirst
  have hread := Reading.foldl_records hdelimiter hne []
  rw [Csv.records, write, String.toList_ofList]
  split
  · rename_i cs htext
    rw [htext] at hhead
    exact absurd rfl hhead
  · rw [Reading.initial, hread, Reading.finish, List.append_nil]
    exact List.reverse_reverse records

end Cosim.Csv
