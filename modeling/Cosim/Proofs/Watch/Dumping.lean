import Cosim.Proofs.Csv
import Cosim.Proofs.Number.Notation
import Cosim.Proofs.Watch.Joining

/-!
# Dumped tables

The text of a table is the table: read as comma-separated values, it gives the names of the columns
and then a record for every row, in which empty fields stand for empty cells and all others for the
numbers in the cells.  Names may hold whatever they like, and the delimiter may be a character that
occurs in numbers.
-/

namespace Cosim.Watch

/-! ## Numbers in fields -/

/-- A field reads as a number: as the same double, or as any not-a-number for one of them. -/
def ReadsAs (field : String) (x : Double) : Prop :=
  ∃ y, Literal.real? field.toList = some y ∧ (y = x ∨ y.isNaN = true ∧ x.isNaN = true)

/-- What is no number is written by name. -/
theorem plain_of_isNaN {x : Double} (h : x.isNaN = true) :
  x.plain = "NaN"
  := by
  rw [Double.plain, if_pos h]

/-- Every double reads as itself. -/
theorem readsAs_plain (x : Double) :
  ReadsAs x.plain x
  := by
  cases hnan : x.isNaN with
  | true =>
    rw [plain_of_isNaN hnan]
    exact ⟨.nan false, by decide, .inr ⟨by decide, hnan⟩⟩
  | false => exact ⟨x, Literal.real?_plain_of_isNaN hnan, .inl rfl⟩

/-- A field that reads as a number is not empty. -/
theorem ReadsAs.ne_empty {field : String} {x : Double} (h : ReadsAs field x) :
  field ≠ ""
  := by
  rintro rfl
  obtain ⟨y, hy, -⟩ := h
  cases hy

/-! ## Cells and rows in records -/

/-- A field shows a cell: it is empty for an empty cell, and else it reads as the cell's value. -/
structure ShowsCell (field : String) (cell : Option Double) : Prop where
  eq_empty_iff : field = "" ↔ cell = none
  readsAs : ∀ x ∈ cell, ReadsAs field x

/-- A record shows a row of a table with so many columns. -/
inductive ShowsRow (columns : ℕ) : List String → Row → Prop where
  | mk {first : String} {fields : List String} {row : Row} : ReadsAs first row.x →
    fields.length = columns → List.Forall₂ ShowsCell fields row.cells →
    ShowsRow columns (first :: fields) row

/-- A cell is shown by its plain text, or by nothing if it is empty. -/
theorem showsCell_plain (cell : Option Double) :
  ShowsCell ((cell.map Double.plain).getD "") cell
  := by
  cases cell with
  | none => exact ⟨by simp, by simp⟩
  | some x => exact ⟨by simpa using (readsAs_plain x).ne_empty, by simpa using readsAs_plain x⟩

/-- The fields of a row show it. -/
theorem showsRow_fields {columns : ℕ} {row : Row} (h : row.cells.length = columns) :
  ShowsRow columns (Table.fields row) row
  := by
  apply ShowsRow.mk (readsAs_plain row.x)
  · rw [List.length_map, h]
  · rw [List.forall₂_map_left_iff, List.forall₂_same]
    intro cell _
    apply showsCell_plain

namespace Table

/-! ## Rows of equal length -/

/-- All rows have the same number of cells. -/
def Wide (total : ℕ) (rows : List Row) : Prop := ∀ row ∈ rows, row.cells.length = total

/-- Writing over cells leaves their number. -/
theorem length_overwrite (values cells : List (Option Double)) :
  (overwrite values cells).length = cells.length
  := by
  induction values generalizing cells with
  | nil => cases cells <;> rfl
  | cons value values ih =>
    cases cells with
    | nil => rfl
    | cons cell cells => rw [overwrite, List.length_cons, ih, List.length_cons]

/-- Writing over cells from a place on leaves their number. -/
theorem length_overwriteFrom (offset : ℕ) (values cells : List (Option Double)) :
  (overwriteFrom offset values cells).length = cells.length
  := by
  rw [overwriteFrom, List.length_append, length_overwrite, ← List.length_append,
    List.take_append_drop]

/-- Rows stay equally wide when one is added. -/
theorem Wide.addRow {total : ℕ} {rows : List Row} (h : Wide total rows) (offset : ℕ) (row : Row) :
  Wide total (addRow total offset row rows)
  := by
  induction rows with
  | nil =>
    intro added hadded
    rw [List.mem_singleton.mp hadded, length_overwriteFrom, List.length_replicate]
  | cons first rows ih =>
    obtain ⟨hfirst, hrows⟩ := List.forall_mem_cons.mp h
    rw [Table.addRow]
    split
    · exact List.forall_mem_cons.mpr ⟨(length_overwriteFrom _ _ _).trans hfirst, hrows⟩
    · exact List.forall_mem_cons.mpr ⟨hfirst, ih hrows⟩

/-- Rows stay equally wide when several are added. -/
theorem Wide.addRows {total : ℕ} {rows : List Row} (h : Wide total rows) (offset : ℕ)
    (added : List Row) :
  Wide total (added.foldl (fun rows row => Table.addRow total offset row rows) rows)
  := by
  induction added generalizing rows with
  | nil => exact h
  | cons row added ih => exact ih (h.addRow offset row)

/-- Rows stay equally wide when those of sources are added. -/
theorem Wide.addSources {total : ℕ} {rows : List Row} (h : Wide total rows) (offset : ℕ)
    (sources : List (Source × List Row)) :
  Wide total (addSources total offset rows sources)
  := by
  induction sources generalizing rows offset with
  | nil => exact h
  | cons source sources ih => exact ih (h.addRows offset source.2) _

/-- All rows of a joined table have its columns. -/
theorem wide_join (sources : List (Source × List Row)) :
  Wide (join sources).columns.length (join sources).rows
  := by
  have hcolumns : (join sources).columns.length = width sources := by
    rw [join, width, List.length_flatMap, List.length_flatMap]
    simp only [Source.displayNames, List.length_map]
  have hwidth : sources.foldl (fun n source => n + source.1.data.length) 0 = width sources := by
    rw [foldl_width, Nat.zero_add]
  have hnone : Wide (width sources) [] := List.forall_mem_nil _
  intro row hrow
  rw [hcolumns]
  apply hnone.addSources 0 sources
  rw [← hwidth]
  exact List.mem_mergeSort.mp hrow

/-! ## Tables that are made -/

/-- A table that is joined from sources, or a window of such a table. -/
inductive Made : Table → Prop where
  | join (sources : List (Source × List Row)) : Made (join sources)
  | window {t : Table} (h : Made t) (w : Window) : Made (t.window w)

/-- All rows of a table that is made have its columns. -/
theorem Made.wide {t : Table} (h : t.Made) :
  Wide t.columns.length t.rows
  := by
  induction h with
  | join sources => apply wide_join
  | window _ w ih =>
    intro row hrow
    exact ih row (List.mem_of_mem_drop hrow)

/-- The text of a table gives its header and its rows. -/
theorem records_toCsv {t : Table} {delimiter : Char} (hmade : t.Made)
    (hascii : delimiter.toNat < 128)
    (hdelimiter : delimiter ≠ '"' ∧ delimiter ≠ '\r' ∧ delimiter ≠ '\n')
    (hmark : t.abscissa.toList.head? ≠ some '\ufeff') :
  ∃ records, Csv.records delimiter (t.toCsv delimiter) = (t.abscissa :: t.columns) :: records ∧
    List.Forall₂ (ShowsRow t.columns.length) records t.rows
  := by
  refine ⟨t.rows.map fields, ?_, ?_⟩
  · apply Csv.records_write (Csv.isDelimiter_iff.mpr hdelimiter)
    · rintro rfl
      exact absurd hascii (by decide)
    · rw [List.forall_mem_cons, List.forall_mem_map]
      exact ⟨List.cons_ne_nil _ _, fun _ _ => List.cons_ne_nil _ _⟩
    · rintro record ⟨⟩ field ⟨⟩
      exact hmark
  · rw [List.forall₂_map_left_iff, List.forall₂_same]
    intro row hrow
    exact showsRow_fields (hmade.wide row hrow)

/-- An engine whose names hold delimiters, quotes and line ends. -/
def quotedSample : List (Source × List Row) := [
  (⟨"twin-engine", ⟨0, "-time\""⟩, [⟨1, "speed\n\"max\""⟩]⟩,
    [⟨Double.zero, [none]⟩, ⟨Double.infinity.neg, [some (Double.nan true)]⟩])]

/-- The window leaves out the row at the negative infinity. -/
theorem records_toCsv_quotedSample :
  let t := (join quotedSample).window ⟨some 1, none⟩
  t.Made ∧ ('-').toNat < 128 ∧ ('-' ≠ '"' ∧ '-' ≠ '\r' ∧ '-' ≠ '\n') ∧
    t.abscissa.toList.head? ≠ some '\ufeff' ∧
    ∃ records, Csv.records '-' (t.toCsv '-') = (t.abscissa :: t.columns) :: records ∧
      List.Forall₂ (ShowsRow t.columns.length) records t.rows
  := by
  have hmade : ((join quotedSample).window ⟨some 1, none⟩).Made := (Made.join quotedSample).window _
  exact ⟨hmade, by decide, by decide, by decide,
    records_toCsv hmade (by decide) (by decide) (by decide)⟩

end Table

end Cosim.Watch
