import Cosim.Proofs.Entries
import Cosim.Proofs.Text
import Cosim.Proofs.Watch.Joining

/-!
# Summaries of joined tables

The dictionary of results has one entry for every name of a data column with values, at the place of
the first such column and with the summary of the last one.  So it covers every column exactly if
the names of the columns with values are distinct.  They are if the sources and the headers in each
of them have distinct names and no source has a bar in its name.
-/

namespace Cosim

/-- The keys that pairs leave stand where they were first put. -/
theorem Entries.keys_ofPairs {α : Type} (pairs : List (String × α)) :
  keys (ofPairs pairs) = (keys pairs).eraseDups
  := by
  induction pairs using List.reverseRecOn with
  | nil => rfl
  | append_singleton pairs e ih =>
    have hkeys : keys (pairs ++ [e]) = keys pairs ++ [e.1] := List.map_append
    rw [ofPairs_concat, hkeys, List.eraseDups_append]
    by_cases hmem : e.1 ∈ keys pairs
    · rw [keys_put_of_mem (mem_keys_ofPairs.mpr hmem), ih]
      simp [List.removeAll, hmem]
    · rw [keys_put_of_not_mem (mt mem_keys_ofPairs.mp hmem), ih]
      simp [List.removeAll, hmem, List.eraseDups_cons]

theorem Entries.ofPairs_eq_self_iff {α : Type} {pairs : List (String × α)} :
  ofPairs pairs = pairs ↔ (keys pairs).Nodup
  := by
  constructor
  · intro h
    rw [← h]
    apply nodup_keys_ofPairs
  · apply ofPairs_eq_self

namespace Watch

/-! ## Names of columns -/

/-- A name without a bar is told from what follows the first bar. -/
theorem bar_injective {name other header title : String} (hname : '|' ∉ name.toList)
    (hother : '|' ∉ other.toList) (h : s!"{name}|{header}" = s!"{other}|{title}") :
  name = other ∧ header = title
  := by
  have hlist : name.toList ++ '|' :: header.toList = other.toList ++ '|' :: title.toList := by
    have := congrArg String.toList h
    simp only [String.toList_append, toString] at this
    simpa using this
  have hfronts := congrArg (List.takeWhile (· != '|')) hlist
  rw [Text.takeWhile_append_mark hname, Text.takeWhile_append_mark hother] at hfronts
  rw [hfronts, List.append_cancel_left_eq, List.cons.injEq] at hlist
  exact ⟨String.toList_injective hfronts, String.toList_injective hlist.2⟩

/-- Sources with names that differ and hold no bar, and with headers that differ in each source. -/
structure Distinguished (sources : List (Source × List Row)) : Prop where
  nodup_names : (sources.map fun source => source.1.name).Nodup
  no_bar : ∀ source ∈ sources, '|' ∉ source.1.name.toList
  nodup_headers : ∀ source ∈ sources, (source.1.data.map (·.header)).Nodup

namespace Table

theorem nodup_columns_join {sources : List (Source × List Row)} (h : Distinguished sources) :
  (join sources).columns.Nodup
  := by
  have hcolumns : (join sources).columns = sources.flatMap fun source => source.1.displayNames :=
    rfl
  rw [hcolumns, List.nodup_flatMap]
  constructor
  · intro source hsource
    have hheaders := h.nodup_headers source hsource
    have hbar := h.no_bar source hsource
    rw [Source.displayNames]
    rw [List.nodup_iff_pairwise_ne, List.pairwise_map] at hheaders ⊢
    apply hheaders.imp
    intro c c' hne heq
    exact hne (bar_injective hbar hbar heq).2
  · have hnames := h.nodup_names
    rw [List.nodup_iff_pairwise_ne, List.pairwise_map] at hnames
    apply hnames.imp_of_mem
    intro source source' hsource hsource' hne name hname hname'
    obtain ⟨c, -, rfl⟩ := List.mem_map.mp hname
    obtain ⟨c', -, heq⟩ := List.mem_map.mp hname'
    have hsame := bar_injective (h.no_bar source' hsource') (h.no_bar source hsource) heq
    exact hne hsame.1.symm

/-! ## Columns with values -/

/-- The data columns that have a value, with their places. -/
def filled (t : Table) : List (String × ℕ) :=
  t.columns.zipIdx.filter fun column => !(t.values column.2).isEmpty

/-- The names of the data columns that have a value. -/
def filledNames (t : Table) : List String := t.filled.map Prod.fst

/-- An entry of a dictionary summarises a column of a table. -/
def Summarises (t : Table) (entry : String × Value) (column : String × ℕ) : Prop :=
  entry.1 = column.1 ∧ ∃ s, Statistics.ofValues? (t.values column.2) = some s ∧ entry.2 = s.toValue

/-- A dictionary has one entry for each column with values, in the order of the columns. -/
def Covers (t : Table) (d : Dictionary) : Prop := List.Forall₂ t.Summarises d t.filled

theorem filledNames_sublist (t : Table) :
  t.filledNames.Sublist t.columns
  := by
  have hsublist := (List.filter_sublist (l := t.columns.zipIdx)
    (p := fun column => !(t.values column.2).isEmpty)).map Prod.fst
  rwa [List.zipIdx_map_fst] at hsublist

end Table

theorem Statistics.isSome_ofValues? (values : List Double) :
  (ofValues? values).isSome = !values.isEmpty
  := by
  cases values with
  | nil => rfl
  | cons x values =>
    rw [ofValues?, List.head?_cons, List.getLast?_cons]
    rfl

namespace Table

/-- The summary of a column under its name; it says nothing for a column without values. -/
def summary (t : Table) (column : String × ℕ) : String × Value :=
  (column.1, ((Statistics.ofValues? (t.values column.2)).map Statistics.toValue).getD .null)

theorem summarises_iff {t : Table} {entry : String × Value} {column : String × ℕ}
    (h : column ∈ t.filled) :
  t.Summarises entry column ↔ entry = t.summary column
  := by
  have hvalues := (List.mem_filter.mp h).2
  rw [← Statistics.isSome_ofValues?, Option.isSome_iff_exists] at hvalues
  obtain ⟨s, hs⟩ := hvalues
  simp [Summarises, summary, hs, Prod.ext_iff]

/-- Only the list of the summaries covers all columns. -/
theorem covers_iff {t : Table} {d : Dictionary} :
  t.Covers d ↔ d = t.filled.map t.summary
  := by
  have hall (columns : List (String × ℕ)) (hcolumns : ∀ column ∈ columns, column ∈ t.filled)
      (d : Dictionary) : List.Forall₂ t.Summarises d columns ↔ d = columns.map t.summary := by
    induction columns generalizing d with
    | nil => rw [List.forall₂_nil_right_iff, List.map_nil]
    | cons column columns ih =>
      rw [List.forall_mem_cons] at hcolumns
      rw [List.forall₂_cons_right_iff, List.map_cons]
      constructor
      · rintro ⟨entry, rest, hentry, hrest, rfl⟩
        rw [(summarises_iff hcolumns.1).mp hentry, (ih hcolumns.2 rest).mp hrest]
      · rintro rfl
        exact ⟨_, _, (summarises_iff hcolumns.1).mpr rfl, (ih hcolumns.2 _).mpr rfl, rfl⟩
  exact hall t.filled (fun _ => id) d

theorem toDictionary_eq (t : Table) :
  t.toDictionary = Entries.ofPairs (t.filled.map t.summary)
  := by
  have hstatistics : t.statistics = Entries.ofPairs (t.columns.zipIdx.filterMap fun column =>
      (Statistics.ofValues? (t.values column.2)).map (column.1, ·)) := rfl
  have hpairs : (t.columns.zipIdx.filterMap fun column =>
      (Statistics.ofValues? (t.values column.2)).map (column.1, ·)).map
        (fun e => (e.1, e.2.toValue)) = t.filled.map t.summary := by
    rw [filled]
    induction t.columns.zipIdx with
    | nil => rfl
    | cons column columns ih =>
      have hvalues := Statistics.isSome_ofValues? (t.values column.2)
      cases hsummary : Statistics.ofValues? (t.values column.2) with
      | none =>
        rw [hsummary] at hvalues
        rw [List.filterMap_cons_none (by rw [hsummary]; rfl), ih,
          List.filter_cons_of_neg (by rw [← hvalues]; decide)]
      | some s =>
        rw [hsummary] at hvalues
        rw [List.filterMap_cons_some (b := (column.1, s)) (by rw [hsummary]; rfl), List.map_cons,
          ih, List.filter_cons_of_pos (by rw [← hvalues]; rfl), List.map_cons, summary, hsummary]
        rfl
  rw [toDictionary, hstatistics, ← hpairs, Entries.ofPairs_map]

theorem keys_summary (t : Table) :
  Entries.keys (t.filled.map t.summary) = t.filledNames
  := by
  rw [Entries.keys, List.map_map, filledNames]
  rfl

/-- The dictionary of results of a joined table has one entry for each name of its columns with
values, in the order of the first ones, and summarises the last one.  It covers every column exactly
if these names are distinct, and so it does for distinguished sources. -/
theorem toDictionary_join (sources : List (Source × List Row)) :
  (join sources).toDictionary.keys = (join sources).filledNames.eraseDups ∧
    (∀ column, (join sources).filled.reverse.find? (·.1 == column.1) = some column →
      ∃ value, (join sources).toDictionary.get? column.1 = some value ∧
        (join sources).Summarises (column.1, value) column) ∧
    ((join sources).Covers (join sources).toDictionary ↔ (join sources).filledNames.Nodup) ∧
    (Distinguished sources → (join sources).Covers (join sources).toDictionary)
  := by
  have hcovers : (join sources).Covers (join sources).toDictionary ↔
      (join sources).filledNames.Nodup := by
    rw [covers_iff, toDictionary_eq, Entries.ofPairs_eq_self_iff, keys_summary]
  refine ⟨?_, ?_, hcovers, ?_⟩
  · rw [toDictionary_eq, Entries.keys_ofPairs, keys_summary]
  · intro column hlast
    have hfilled := List.mem_reverse.mp (List.mem_of_find?_eq_some hlast)
    have hget := Entries.get?_ofPairs_named Prod.fst
      (fun column => ((join sources).summary column).2) (join sources).filled column.1
    rw [hlast] at hget
    refine ⟨((join sources).summary column).2, ?_, (summarises_iff hfilled).mpr rfl⟩
    rw [toDictionary_eq]
    exact hget
  · intro h
    exact hcovers.mpr ((nodup_columns_join h).sublist (filledNames_sublist _))

/-- An engine whose result file has two columns of one name. -/
def doubled : Source × List Row :=
  (⟨"engine", ⟨0, "Time"⟩, [⟨1, "speed"⟩, ⟨2, "speed"⟩]⟩,
    [⟨Double.zero, [some Double.zero, some Double.zero]⟩])

theorem join_doubled :
  join [doubled] = ⟨"Time", ["engine|speed", "engine|speed"], doubled.2⟩
  := by
  have hadded : addSources 2 0 [] [doubled] = doubled.2 := by decide
  have hrows : (join [doubled]).rows = doubled.2 := by
    calc (join [doubled]).rows
      _ = sorted (addSources 2 0 [] [doubled]) := rfl
      _ = sorted doubled.2 := by rw [hadded]
      _ = doubled.2 := List.mergeSort_singleton _
  calc join [doubled]
    _ = ⟨"Time", ["engine|speed", "engine|speed"], (join [doubled]).rows⟩ := rfl
    _ = ⟨"Time", ["engine|speed", "engine|speed"], doubled.2⟩ := by rw [hrows]

/-- Of two columns with one name, only one is summarised. -/
theorem not_covers_doubled :
  Source.ofText? "engine" ⟨[], "Time", ','⟩ "Time,speed,speed\n0,0,0\n" = some doubled ∧
    (join [doubled]).filled = [("engine|speed", 0), ("engine|speed", 1)] ∧
    (join [doubled]).toDictionary.keys = ["engine|speed"] ∧
    ¬ (join [doubled]).Covers (join [doubled]).toDictionary
  := by
  have hfilled : (join [doubled]).filled = [("engine|speed", 0), ("engine|speed", 1)] := by
    rw [join_doubled]
    decide
  have hnames : (join [doubled]).filledNames = ["engine|speed", "engine|speed"] := by
    rw [filledNames, hfilled]
    rfl
  refine ⟨by decide +kernel, hfilled, ?_, ?_⟩
  · rw [toDictionary_eq, Entries.keys_ofPairs, keys_summary, hnames]
    decide
  · rw [covers_iff, toDictionary_eq, Entries.ofPairs_eq_self_iff, keys_summary, hnames]
    decide

end Table

end Watch

end Cosim
