import Cosim.Watch.Table
import Mathlib.Data.List.Nodup

/-!
# Joined tables

A joined table is the outer join of its sources.  It has one row for every abscissa of any source,
in increasing order, and in every row the columns of a source hold what the last row of that source
at the abscissa holds, or nothing if the source has no such row.
-/

namespace Cosim

/-- The order of doubles tells all bit patterns apart. -/
theorem Double.rank_injective :
  Function.Injective Double.rank
  := by
  rintro ⟨a⟩ ⟨b⟩ h
  have hsign : signBit = 9223372036854775808 := rfl
  have ha := a.toNat_lt
  have hb := b.toNat_lt
  have hbits : a.toNat = b.toNat := by
    simp only [rank, isNegative, magnitude, hsign, decide_eq_true_eq] at h
    split at h <;> split at h <;> omega
  rw [UInt64.toNat_inj.mp hbits]

namespace Watch.Table

/-! ## Cells at an abscissa -/

/-- The cells of the first row at an abscissa, or as many empty ones as are given if there is no
such row. -/
def cellsAt (width : ℕ) (rows : List Row) (x : Double) : List (Option Double) :=
  ((rows.find? fun row => row.x = x).map Row.cells).getD (List.replicate width none)

/-- The cells of the last row of a source at an abscissa, or empty ones if there is no such row. -/
def lastCells (source : Source × List Row) (x : Double) : List (Option Double) :=
  cellsAt source.1.data.length source.2.reverse x

/-- The cells of sources at an abscissa side by side. -/
def sideBySide (sources : List (Source × List Row)) (x : Double) : List (Option Double) :=
  sources.flatMap fun source => lastCells source x

/-- The number of the data columns of sources. -/
def width (sources : List (Source × List Row)) : ℕ :=
  (sources.flatMap fun source => source.1.data).length

/-- Every row of the sources has one cell for every data column. -/
def Fit (sources : List (Source × List Row)) : Prop :=
  ∀ source ∈ sources, ∀ row ∈ source.2, row.cells.length = source.1.data.length

theorem cellsAt_nil (width : ℕ) (x : Double) :
  cellsAt width [] x = List.replicate width none
  := rfl

/-- The cells at an abscissa are those of the first row that has it. -/
theorem cellsAt_cons (width : ℕ) (row : Row) (rows : List Row) (x : Double) :
  cellsAt width (row :: rows) x = if row.x = x then row.cells else cellsAt width rows x
  := by
  rw [cellsAt, List.find?_cons]
  by_cases h : row.x = x
  · simp [h]
  · simp [h, cellsAt]

/-- The cells at an abscissa have the width of the rows. -/
theorem length_cellsAt {width : ℕ} {rows : List Row} (h : ∀ row ∈ rows, row.cells.length = width)
    (x : Double) :
  (cellsAt width rows x).length = width
  := by
  induction rows with
  | nil => rw [cellsAt_nil, List.length_replicate]
  | cons row rows ih =>
    rw [List.forall_mem_cons] at h
    rw [cellsAt_cons]
    split
    · apply h.1
    · apply ih h.2

/-- Where abscissas are distinct, a row is found at its own. -/
theorem cellsAt_of_mem {width : ℕ} {rows : List Row} {row : Row}
    (hnodup : (rows.map Row.x).Nodup) (h : row ∈ rows) :
  cellsAt width rows row.x = row.cells
  := by
  induction rows with
  | nil => cases h
  | cons first rows ih =>
    rw [List.map_cons, List.nodup_cons] at hnodup
    rw [cellsAt_cons]
    obtain rfl | h := List.mem_cons.mp h
    · rw [if_pos rfl]
    · rw [if_neg, ih hnodup.2 h]
      intro hx
      apply hnodup.1
      rw [hx]
      apply List.mem_map_of_mem h

theorem lastCells_nil (source : Source) (x : Double) :
  lastCells (source, []) x = List.replicate source.data.length none
  := rfl

/-- A later row of a source counts more than the rows before it. -/
theorem lastCells_concat (source : Source) (rows : List Row) (row : Row) (x : Double) :
  lastCells (source, rows ++ [row]) x =
    if row.x = x then row.cells else lastCells (source, rows) x
  := by
  rw [lastCells, List.reverse_append, List.reverse_singleton, List.singleton_append, cellsAt_cons]
  rfl

/-- The cells of a last source stand behind those of the others. -/
theorem sideBySide_concat (sources : List (Source × List Row)) (source : Source × List Row)
    (x : Double) :
  sideBySide (sources ++ [source]) x = sideBySide sources x ++ lastCells source x
  := by
  rw [sideBySide, List.flatMap_append, List.flatMap_singleton]
  rfl

/-- Sources have the widths of the first ones and of the others together. -/
theorem width_append (sources more : List (Source × List Row)) :
  width (sources ++ more) = width sources + width more
  := by
  rw [width, List.flatMap_append, List.length_append]
  rfl

/-- Sources have the widths of the first one and of the others together. -/
theorem width_cons (source : Source × List Row) (sources : List (Source × List Row)) :
  width (source :: sources) = source.1.data.length + width sources
  := by
  rw [width, List.flatMap_cons, List.length_append]
  rfl

/-- Sources have the widths of the others and of the last one together. -/
theorem width_concat (sources : List (Source × List Row)) (source : Source) (rows : List Row) :
  width (sources ++ [(source, rows)]) = width sources + source.data.length
  := by
  rw [width_append, width_cons]
  rfl

/-- Counting the data columns of the sources adds their width. -/
theorem foldl_width (sources : List (Source × List Row)) (n : ℕ) :
  sources.foldl (fun n source => n + source.1.data.length) n = n + width sources
  := by
  induction sources generalizing n with
  | nil => rfl
  | cons source sources ih => rw [List.foldl_cons, ih, width_cons, Nat.add_assoc]

/-- The cells side by side have the width of the sources that fit. -/
theorem length_sideBySide {sources : List (Source × List Row)} (h : Fit sources) (x : Double) :
  (sideBySide sources x).length = width sources
  := by
  rw [sideBySide, List.length_flatMap, width, List.length_flatMap]
  congr 1
  apply List.map_congr_left
  intro source hsource
  apply length_cellsAt
  intro row hrow
  apply h source hsource row (List.mem_reverse.mp hrow)

/-! ## Writing over cells -/

/-- Values that find room replace as many cells as they are. -/
theorem overwrite_eq {values cells : List (Option Double)} (h : values.length ≤ cells.length) :
  overwrite values cells = values ++ cells.drop values.length
  := by
  induction values generalizing cells with
  | nil => cases cells <;> rfl
  | cons value values ih =>
    cases cells with
    | nil => cases h
    | cons cell cells =>
      rw [overwrite, ih (Nat.le_of_succ_le_succ h), List.cons_append, List.length_cons,
        List.drop_succ_cons]

/-- What is written from a column on replaces as many cells and leaves the others. -/
theorem overwriteFrom_append {front old values : List (Option Double)}
    (h : values.length = old.length) (more : List (Option Double)) :
  overwriteFrom front.length values (front ++ old ++ more) = front ++ values ++ more
  := by
  rw [List.append_assoc, overwriteFrom, List.take_left, List.drop_left, overwrite_eq (by simp [h]),
    h, List.drop_left, List.append_assoc]

/-! ## Adding a row -/

section AddRow

variable {total offset : ℕ} {row : Row} {rows : List Row}

/-- An added row is written over the cells at its abscissa, and no other cells change. -/
theorem cellsAt_addRow (total offset : ℕ) (row : Row) (rows : List Row) (x : Double) :
  cellsAt total (addRow total offset row rows) x =
    if row.x = x then overwriteFrom offset row.cells (cellsAt total rows x)
    else cellsAt total rows x
  := by
  induction rows with
  | nil => rw [addRow, cellsAt_cons, cellsAt_nil]
  | cons first rows ih =>
    rw [addRow]
    by_cases hfirst : first.x = row.x
    · rw [if_pos hfirst, cellsAt_cons, cellsAt_cons, hfirst]
      split <;> rfl
    · rw [if_neg hfirst, cellsAt_cons, cellsAt_cons, ih]
      by_cases hx : first.x = x
      · rw [if_pos hx, if_pos hx, if_neg]
        rintro rfl
        apply hfirst hx
      · rw [if_neg hx, if_neg hx]

/-- An added row brings its abscissa and no other. -/
theorem mem_abscissas_addRow {x : Double} :
  x ∈ (addRow total offset row rows).map Row.x ↔ x ∈ rows.map Row.x ∨ x = row.x
  := by
  induction rows with
  | nil => simp [addRow]
  | cons first rows ih =>
    rw [addRow]
    split
    · rename_i hfirst
      rw [List.map_cons, List.map_cons, List.mem_cons, hfirst]
      tauto
    · rw [List.map_cons, List.map_cons, List.mem_cons, List.mem_cons, ih, or_assoc]

/-- No abscissa gets a second row. -/
theorem nodup_abscissas_addRow (h : (rows.map Row.x).Nodup) :
  ((addRow total offset row rows).map Row.x).Nodup
  := by
  induction rows with
  | nil => simp [addRow]
  | cons first rows ih =>
    rw [List.map_cons, List.nodup_cons] at h
    rw [addRow]
    split
    · rw [List.map_cons, List.nodup_cons]
      apply h
    · rename_i hfirst
      rw [List.map_cons, List.nodup_cons, mem_abscissas_addRow, not_or]
      exact ⟨⟨h.1, hfirst⟩, ih h.2⟩

end AddRow

/-! ## Adding sources -/

/-- What rows hold once the given sources have been added: one row for every abscissa, with the
cells of the sources side by side in front of columns that are still empty. -/
structure Added (total : ℕ) (sources : List (Source × List Row)) (rows : List Row) : Prop where
  nodup : (rows.map Row.x).Nodup
  abscissas : ∀ x, x ∈ rows.map Row.x ↔ ∃ source ∈ sources, ∃ row ∈ source.2, row.x = x
  cells : ∀ x, cellsAt total rows x =
    sideBySide sources x ++ List.replicate (total - width sources) none

namespace Added

variable {total : ℕ} {sources : List (Source × List Row)} {source : Source} {added rows : List Row}

theorem nil (total : ℕ) :
  Added total [] []
  := ⟨List.nodup_nil, by simp, fun _ => rfl⟩

/-- A source without rows leaves its columns empty. -/
theorem start (h : Added total sources rows) (hwidth : width (sources ++ [(source, [])]) ≤ total) :
  Added total (sources ++ [(source, [])]) rows
  := by
  rw [width_concat] at hwidth
  refine ⟨h.nodup, by simpa using h.abscissas, ?_⟩
  intro x
  rw [h.cells, sideBySide_concat, lastCells_nil, List.append_assoc, ← List.replicate_add,
    width_concat]
  congr 2
  omega

/-- A row of a source is written into the columns of that source, and into no others. -/
theorem add {row : Row} (h : Added total (sources ++ [(source, added)]) rows) (hfit : Fit sources)
    (hadded : ∀ r ∈ added, r.cells.length = source.data.length)
    (hrow : row.cells.length = source.data.length) :
  Added total (sources ++ [(source, added ++ [row])]) (addRow total (width sources) row rows)
  := by
  refine ⟨nodup_abscissas_addRow h.nodup, ?_, ?_⟩
  · intro x
    rw [mem_abscissas_addRow, h.abscissas]
    simp only [List.mem_append, List.mem_singleton]
    constructor
    · rintro (⟨s, hs | rfl, r, hr, hx⟩ | rfl)
      · exact ⟨s, .inl hs, r, hr, hx⟩
      · exact ⟨_, .inr rfl, r, List.mem_append_left _ hr, hx⟩
      · exact ⟨_, .inr rfl, row, by simp, rfl⟩
    · rintro ⟨s, hs | rfl, r, hr, hx⟩
      · exact .inl ⟨s, .inl hs, r, hr, hx⟩
      · obtain hr | hr := List.mem_append.mp hr
        · exact .inl ⟨_, .inr rfl, r, hr, hx⟩
        · rw [List.mem_singleton] at hr
          exact .inr (by rw [← hx, hr])
  · intro x
    have hlast : (lastCells (source, added) x).length = source.data.length :=
      length_cellsAt (fun r hr => hadded r (List.mem_reverse.mp hr)) x
    rw [cellsAt_addRow, h.cells, sideBySide_concat, sideBySide_concat, lastCells_concat,
      width_concat, width_concat]
    split
    · rw [← length_sideBySide hfit x]
      apply overwriteFrom_append (hrow.trans hlast.symm)
    · rfl

/-- All rows of a source, by induction on them. -/
theorem addAll {more : List Row} (h : Added total (sources ++ [(source, added)]) rows)
    (hfit : Fit (sources ++ [(source, added ++ more)])) :
  Added total (sources ++ [(source, added ++ more)])
    (more.foldl (fun rows row => addRow total (width sources) row rows) rows)
  := by
  induction more generalizing added rows with
  | nil => rwa [List.append_nil]
  | cons row more ih =>
    rw [List.append_cons added row more] at hfit ⊢
    obtain ⟨hsources, hsource⟩ := List.forall_mem_append.mp hfit
    rw [List.forall_mem_singleton, List.forall_mem_append, List.forall_mem_append] at hsource
    obtain ⟨⟨hadded, hrow⟩, -⟩ := hsource
    apply ih (h.add hsources hadded (hrow row (List.mem_singleton_self row))) hfit

/-- All sources, by induction on those that are left. -/
theorem addSources {more : List (Source × List Row)} (h : Added total sources rows)
    (hfit : Fit (sources ++ more)) (hwidth : width (sources ++ more) ≤ total) :
  Added total (sources ++ more) (addSources total (width sources) rows more)
  := by
  induction more generalizing sources rows with
  | nil =>
    rw [List.append_nil]
    apply h
  | cons first more ih =>
    obtain ⟨source, added⟩ := first
    rw [List.append_cons] at hfit hwidth ⊢
    have hnext : width (sources ++ [(source, added)]) ≤ total := by
      rw [width_append] at hwidth
      omega
    have hstart : Added total (sources ++ [(source, [])]) rows := by
      apply h.start
      rwa [width_concat] at hnext ⊢
    have hall := hstart.addAll (List.forall_mem_append.mp hfit).1
    rw [Table.addSources]
    have hrest := ih hall hfit hwidth
    rwa [width_concat] at hrest

end Added

/-! ## The outer join -/

/-- A table is the outer join of sources. -/
structure IsOuterJoin (t : Table) (sources : List (Source × List Row)) : Prop where
  columns : t.columns = sources.flatMap fun source => source.1.displayNames
  increasing : t.rows.Pairwise fun a b => a.x.rank < b.x.rank
  abscissas : ∀ x, (∃ row ∈ t.rows, row.x = x) ↔ ∃ source ∈ sources, ∃ row ∈ source.2, row.x = x
  cells : ∀ row ∈ t.rows, row.cells = sideBySide sources row.x

/-- Rows at distinct abscissas are sorted strictly. -/
theorem pairwise_sorted {rows : List Row} (h : (rows.map Row.x).Nodup) :
  (sorted rows).Pairwise fun a b => a.x.rank < b.x.rank
  := by
  have hle : (sorted rows).Pairwise fun a b => a.x.rank ≤ b.x.rank := by
    have hsorted := @List.pairwise_mergeSort Row (fun a b => decide (a.x.rank ≤ b.x.rank))
      (fun a b c hab hbc => by simp only [decide_eq_true_eq] at *; omega)
      (fun a b => by simp only [Bool.or_eq_true, decide_eq_true_eq]; omega) rows
    simpa only [sorted, decide_eq_true_eq] using hsorted
  have hperm : (sorted rows).Perm rows := List.mergeSort_perm _ _
  have hne : (sorted rows).Pairwise fun a b => a.x ≠ b.x :=
    List.pairwise_map.mp ((hperm.map Row.x).nodup_iff.mpr h)
  apply (hle.and hne).imp
  rintro a b ⟨hab, hx⟩
  have hrank := Double.rank_injective.ne hx
  omega

/-- The joined table is the outer join of sources that fit. -/
theorem join_isOuterJoin {sources : List (Source × List Row)} (h : Fit sources) :
  (join sources).IsOuterJoin sources
  := by
  have hwidth : sources.foldl (fun n source => n + source.1.data.length) 0 = width sources := by
    rw [foldl_width, Nat.zero_add]
  have hfit : Fit ([] ++ sources) := h
  have hadded := (Added.nil (width sources)).addSources hfit (Nat.le_refl _)
  have hrows : (join sources).rows = sorted (addSources (width sources) 0 [] sources) := by
    rw [← hwidth]
    rfl
  have hperm : (join sources).rows.Perm (addSources (width sources) 0 [] sources) := by
    rw [hrows]
    apply List.mergeSort_perm
  constructor
  case columns => rfl
  case increasing =>
    rw [hrows]
    apply pairwise_sorted hadded.nodup
  case abscissas =>
    intro x
    rw [← List.mem_map, (hperm.map Row.x).mem_iff]
    apply hadded.abscissas
  case cells =>
    intro row hrow
    have hcells := hadded.cells row.x
    rwa [cellsAt_of_mem hadded.nodup (hperm.mem_iff.mp hrow), List.nil_append, Nat.sub_self,
      List.replicate_zero, List.append_nil] at hcells

/-- A source with an abscissa twice, of which the later row has an empty cell, between one without
data columns and one whose only row is at the negative zero. -/
def sample : List (Source × List Row) := [
  (⟨"clock", ⟨0, "Time"⟩, []⟩, [⟨Double.infinity, []⟩, ⟨Double.zero, []⟩]),
  (⟨"engine", ⟨0, "Time"⟩, [⟨1, "speed"⟩, ⟨2, "torque"⟩]⟩, [
    ⟨Double.infinity, [some Double.zero, some Double.zero]⟩,
    ⟨Double.zero, [some Double.infinity, none]⟩,
    ⟨Double.infinity, [some Double.infinity, none]⟩]),
  (⟨"hull", ⟨1, "Time"⟩, [⟨0, "drag"⟩]⟩, [⟨Double.zero.neg, [some Double.zero]⟩])]

/-- Both infinities and both zeros are abscissas of their own. -/
theorem join_isOuterJoin_sample :
  Fit sample ∧ (join sample).IsOuterJoin sample ∧
    sideBySide sample Double.infinity = [some Double.infinity, none, none] ∧
    sideBySide sample Double.zero.neg = [none, none, some Double.zero]
  := by
  have hfit : Fit sample := by
    unfold Fit
    decide
  exact ⟨hfit, join_isOuterJoin hfit, by decide, by decide⟩

end Watch.Table

end Cosim
