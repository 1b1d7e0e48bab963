import Cosim.Proofs.Watch.Columns

/-!
# Selected columns

The columns that are read of a result file, as indices of its headers.  The abscissa comes first.
Behind it come the configured indices that exist, in the order in which they first occur, or those
of all data columns if none are configured.  Every row has one cell for each column behind the
abscissa, however many fields its record has.
-/

namespace Cosim.Watch.Source

variable {headers : List String} {configured : List ℕ} {timeColumn : String} {abscissa c : Column}

/-! ## What is selected -/

/-- The index of the first column under the header of the time, or else that of the first one. -/
def timeIndex (headers : List String) (timeColumn : String) : ℕ :=
  (headers.idxOf? timeColumn).getD 0

/-- A header of neither step counts nor settings. -/
def IsDataHeader (header : String) : Prop :=
  header ≠ "StepCount" ∧ ¬ "settings".toList <+: header.toList

instance (header : String) : Decidable (IsDataHeader header) :=
  inferInstanceAs (Decidable (_ ∧ _))

/-- The indices that are read besides the one of the abscissa. -/
def dataIndices (headers : List String) (configured : List ℕ) (abscissa : ℕ) : List ℕ :=
  if configured = [] then
    (headers.zipIdx.filter fun (header, i) => i ≠ abscissa ∧ IsDataHeader header).map Prod.snd
  else (configured.filter fun i => i < headers.length ∧ i ≠ abscissa).eraseDups

/-- A column under headers: its index is one of theirs, and it has the header there. -/
def Listed (headers : List String) (c : Column) : Prop := headers[c.index]? = some c.header

/-- What the columns of a source are, given the headers and what is asked for. -/
structure Selects (headers : List String) (configured : List ℕ) (timeColumn : String)
    (s : Source) : Prop where
  indices : s.columns.map (·.index) =
    timeIndex headers timeColumn :: dataIndices headers configured (timeIndex headers timeColumn)
  nodup : (s.columns.map (·.index)).Nodup
  texts : ∀ c ∈ s.columns, ∃ h : c.index < headers.length, headers[c.index] = c.header

/-! ## Columns under headers -/

/-- A header lists a column exactly if the column has the text at its index. -/
theorem listed_iff :
  Listed headers c ↔ ∃ h : c.index < headers.length, headers[c.index] = c.header
  := List.getElem?_eq_some_iff

/-- The columns of a header are those that it lists. -/
theorem mem_columnsOf_iff :
  c ∈ columnsOf headers ↔ Listed headers c
  := by
  rw [List.mem_iff_getElem?]
  constructor
  · rintro ⟨i, hi⟩
    rw [getElem?_columnsOf] at hi
    obtain ⟨header, hheader, rfl⟩ := Option.map_eq_some_iff.mp hi
    apply hheader
  · intro h
    use c.index
    rw [getElem?_columnsOf, h]
    rfl

/-- Of the columns under headers, each has an index of its own. -/
theorem Listed.eq_iff {other : Column} (h : Listed headers c) (hother : Listed headers other) :
  c = other ↔ c.index = other.index
  := by
  constructor
  · rintro rfl
    rfl
  · intro hindex
    rw [Listed, hindex, hother] at h
    obtain ⟨i, header⟩ := c
    obtain ⟨j, otherHeader⟩ := other
    cases hindex
    cases h
    rfl

/-- A header has a column for each text. -/
theorem length_columnsOf (headers : List String) :
  (columnsOf headers).length = headers.length
  := by
  rw [columnsOf, List.length_map, List.length_zipIdx]

theorem getElem_columnsOf {i : ℕ} (h : i < headers.length)
    (hcolumn : i < (columnsOf headers).length) :
  (columnsOf headers)[i] = ⟨i, headers[i]⟩
  := by
  apply Option.some.inj
  rw [← List.getElem?_eq_getElem hcolumn, getElem?_columnsOf, List.getElem?_eq_getElem h,
    Option.map_some]

/-! ## The abscissa -/

/-- No column is found under a header that is not there. -/
theorem find?_columnsOf_eq_none (h : headers.idxOf? timeColumn = none) :
  (columnsOf headers).find? (·.header == timeColumn) = none
  := by
  rw [List.find?_eq_none]
  intro c hc hheader
  apply List.idxOf?_eq_none_iff.mp h
  rw [← map_header_columnsOf headers, ← beq_iff_eq.mp hheader]
  apply List.mem_map_of_mem hc

/-- A column is found at the first place of its header. -/
theorem find?_columnsOf_eq_some {i : ℕ} (h : headers.idxOf? timeColumn = some i) :
  (columnsOf headers).find? (·.header == timeColumn) = some ⟨i, timeColumn⟩
  := by
  obtain ⟨hlt, hheader, hbefore⟩ := List.idxOf?_eq_some_iff.mp h
  have hlength := length_columnsOf headers
  rw [List.find?_eq_some_iff_getElem]
  constructor
  · apply beq_self_eq_true
  · use i, hlength ▸ hlt
    constructor
    · rw [getElem_columnsOf hlt, hheader]
    · intro j hj
      rw [getElem_columnsOf (Nat.lt_trans hj hlt), Bool.not_eq_true', beq_eq_false_iff_ne]
      apply hbefore j hj

/-- There is an abscissa under any headers, and it is a column of theirs. -/
theorem abscissa?_columnsOf (hne : headers ≠ []) (timeColumn : String) :
  ∃ a, abscissa? timeColumn (columnsOf headers) = some a ∧ Listed headers a ∧
    a.index = timeIndex headers timeColumn
  := by
  cases hindex : headers.idxOf? timeColumn with
  | none =>
    obtain ⟨header, more, rfl⟩ := List.exists_cons_of_ne_nil hne
    refine ⟨⟨0, header⟩, ?_, rfl, ?_⟩
    · rw [abscissa?, find?_columnsOf_eq_none hindex]
      rfl
    · rw [timeIndex, hindex]
      rfl
  | some i =>
    obtain ⟨hlt, hheader, -⟩ := List.idxOf?_eq_some_iff.mp hindex
    refine ⟨⟨i, timeColumn⟩, ?_, listed_iff.mpr ⟨hlt, hheader⟩, ?_⟩
    · rw [abscissa?, find?_columnsOf_eq_some hindex, Option.some_or]
    · rw [timeIndex, hindex, Option.getD_some]

/-! ## The data columns -/

/-- A column holds data exactly if its header is one of data. -/
theorem isData_iff :
  isData c = true ↔ IsDataHeader c.header
  := by
  rw [isData, Bool.and_eq_true, bne_iff_ne, Bool.not_eq_true', ← Bool.not_eq_true,
    String.startsWith_string_iff]
  rfl

/-- Without configured columns, the data columns are those with proper headers. -/
theorem dataColumns_of_none (habscissa : Listed headers abscissa) :
  (dataColumns (columnsOf headers) abscissa []).map (·.index) =
    dataIndices headers [] abscissa.index
  := by
  have hsame : ∀ c ∈ columnsOf headers,
      (c != abscissa && isData c) = decide (c.index ≠ abscissa.index ∧ IsDataHeader c.header) := by
    intro c hc
    have hne : c ≠ abscissa ↔ c.index ≠ abscissa.index :=
      ((mem_columnsOf_iff.mp hc).eq_iff habscissa).not
    rw [Bool.eq_iff_iff, Bool.and_eq_true, bne_iff_ne, isData_iff, decide_eq_true_iff, hne]
  rw [dataColumns, if_pos List.isEmpty_nil, dataIndices, if_pos rfl, List.filter_congr hsame,
    columnsOf, List.filter_map, List.map_map]
  rfl

/-- A last item is a duplicate if it is among the others. -/
theorem eraseDups_concat (xs : List ℕ) (x : ℕ) :
  (xs ++ [x]).eraseDups = if x ∈ xs then xs.eraseDups else xs.eraseDups ++ [x]
  := by
  rw [List.eraseDups_append]
  split
  · rename_i h
    rw [List.removeAll, List.filter_cons_of_neg (by simpa using h), List.filter_nil,
      List.eraseDups_nil, List.append_nil]
  · rename_i h
    rw [List.removeAll, List.filter_cons_of_pos (by simpa using h), List.filter_nil,
      List.eraseDups_cons, List.filter_nil, List.eraseDups_nil]

/-- Without duplicates there are none. -/
theorem nodup_eraseDups (xs : List ℕ) :
  xs.eraseDups.Nodup
  := by
  induction xs using List.reverseRecOn with
  | nil => exact List.nodup_nil
  | append_singleton xs x ih =>
    rw [eraseDups_concat]
    split
    · exact ih
    · rename_i h
      rw [← List.concat_eq_append]
      apply ih.concat
      rwa [List.mem_eraseDups]

/-- One more configured index adds its column, unless it has none or has been added already. -/
theorem configuredColumns_concat (columns : List Column) (abscissa : Column)
    (configured : List ℕ) (i : ℕ) :
  configuredColumns columns abscissa (configured ++ [i]) =
    match columns[i]? with
    | some c =>
      if c == abscissa || (configuredColumns columns abscissa configured).contains c then
        configuredColumns columns abscissa configured
      else configuredColumns columns abscissa configured ++ [c]
    | none => configuredColumns columns abscissa configured
  := by
  rw [configuredColumns, List.foldl_append]
  rfl

/-- The header lists all configured columns. -/
theorem listed_of_mem_configuredColumns
    (h : c ∈ configuredColumns (columnsOf headers) abscissa configured) :
  Listed headers c
  := by
  induction configured using List.reverseRecOn with
  | nil => cases h
  | append_singleton configured i ih =>
    rw [configuredColumns_concat] at h
    split at h
    · rename_i column hcolumn
      split at h
      · apply ih h
      · rcases List.mem_append.mp h with h | h
        · apply ih h
        · rw [List.mem_singleton.mp h]
          apply mem_columnsOf_iff.mp (List.mem_of_getElem? hcolumn)
    · apply ih h

/-- A listed column is configured exactly if its index is that of a configured one. -/
theorem index_mem_configuredColumns (hc : Listed headers c) :
  c.index ∈ (configuredColumns (columnsOf headers) abscissa configured).map (·.index) ↔
    c ∈ configuredColumns (columnsOf headers) abscissa configured
  := by
  rw [List.mem_map]
  constructor
  · rintro ⟨other, hother, hindex⟩
    have heq : other = c :=
      ((listed_of_mem_configuredColumns hother).eq_iff hc).mpr hindex
    exact heq ▸ hother
  · intro h
    use c

/-- The configured columns are those whose indices are configured and exist, each at its first
occurrence.  The induction appends one more configured index. -/
theorem configuredColumns_columnsOf (habscissa : Listed headers abscissa) (configured : List ℕ) :
  (configuredColumns (columnsOf headers) abscissa configured).map (·.index) =
    (configured.filter fun i => i < headers.length ∧ i ≠ abscissa.index).eraseDups
  := by
  induction configured using List.reverseRecOn with
  | nil => rfl
  | append_singleton configured i ih =>
    rw [configuredColumns_concat, List.filter_append, getElem?_columnsOf]
    cases hheader : headers[i]? with
    | none =>
      have hout : ¬ (i < headers.length ∧ i ≠ abscissa.index) := by
        rintro ⟨hlt, -⟩
        rw [List.getElem?_eq_getElem hlt] at hheader
        cases hheader
      rw [List.filter_cons_of_neg (by simpa using hout), List.filter_nil, List.append_nil]
      exact ih
    | some header =>
      have hlisted : Listed headers ⟨i, header⟩ := hheader
      have hmem :
          i ∈ (configuredColumns (columnsOf headers) abscissa configured).map (·.index) ↔
            ⟨i, header⟩ ∈ configuredColumns (columnsOf headers) abscissa configured :=
        index_mem_configuredColumns hlisted
      rw [ih, List.mem_eraseDups] at hmem
      simp only [Option.map_some, Bool.or_eq_true, beq_iff_eq, hlisted.eq_iff habscissa,
        List.contains_iff_mem, ← hmem]
      by_cases hsame : i = abscissa.index
      · rw [if_pos (.inl hsame), List.filter_cons_of_neg (by simp [hsame]), List.filter_nil,
          List.append_nil, ih]
      · have hin : i < headers.length ∧ i ≠ abscissa.index :=
          ⟨(listed_iff.mp hlisted).1, hsame⟩
        rw [List.filter_cons_of_pos (by simpa using hin), List.filter_nil, eraseDups_concat]
        simp only [hsame, false_or]
        split
        · exact ih
        · rw [List.map_append, ih]
          rfl

/-- The data columns of a header have the data indices. -/
theorem dataColumns_columnsOf (habscissa : Listed headers abscissa) (configured : List ℕ) :
  (dataColumns (columnsOf headers) abscissa configured).map (·.index) =
    dataIndices headers configured abscissa.index
  := by
  cases configured with
  | nil => apply dataColumns_of_none habscissa
  | cons i configured =>
    have hsome : ¬ (i :: configured).isEmpty = true := Bool.false_ne_true
    rw [dataColumns, if_neg hsome, dataIndices, if_neg (List.cons_ne_nil i configured)]
    apply configuredColumns_columnsOf habscissa

/-- The header lists all data columns. -/
theorem listed_of_mem_dataColumns (h : c ∈ dataColumns (columnsOf headers) abscissa configured) :
  Listed headers c
  := by
  rw [dataColumns] at h
  split at h
  · apply mem_columnsOf_iff.mp (List.mem_of_mem_filter h)
  · apply listed_of_mem_configuredColumns h

/-- No index is selected twice, and the abscissa is not among the data. -/
theorem nodup_dataIndices (headers : List String) (configured : List ℕ) (abscissa : ℕ) :
  (abscissa :: dataIndices headers configured abscissa).Nodup
  := by
  rw [List.nodup_cons, dataIndices]
  split
  · constructor
    · intro hmem
      obtain ⟨⟨header, i⟩, hfiltered, hi⟩ := List.mem_map.mp hmem
      have hne := of_decide_eq_true (List.mem_filter.mp hfiltered).2
      apply hne.1 hi
    · have hall : (headers.zipIdx.map Prod.snd).Nodup := by
        rw [List.zipIdx_map_snd]
        apply List.nodup_range' 1 Nat.one_pos
      apply hall.sublist (List.filter_sublist.map Prod.snd)
  · constructor
    · intro hmem
      have hfiltered := (List.mem_filter.mp (List.mem_eraseDups.mp hmem)).2
      apply (of_decide_eq_true hfiltered).2 rfl
    · apply nodup_eraseDups

/-! ## Sources and rows -/

/-- A header that is not empty makes a source with the columns that are to be selected. -/
theorem exists_ofHeaders? (hne : headers ≠ []) (name : String) (configured : List ℕ)
    (timeColumn : String) :
  ∃ s, ofHeaders? name headers configured timeColumn = some s ∧ s.name = name ∧
    Selects headers configured timeColumn s
  := by
  obtain ⟨a, habscissa, hlisted, hindex⟩ := abscissa?_columnsOf hne timeColumn
  have hindices : (a :: dataColumns (columnsOf headers) a configured).map (·.index) =
      timeIndex headers timeColumn ::
        dataIndices headers configured (timeIndex headers timeColumn) := by
    rw [List.map_cons, dataColumns_columnsOf hlisted, hindex]
  refine ⟨⟨name, a, dataColumns (columnsOf headers) a configured⟩, ?_, rfl, hindices, ?_, ?_⟩
  · rw [ofHeaders?, habscissa, Option.map_some]
  · rw [columns, hindices]
    apply nodup_dataIndices
  · intro c hc
    apply listed_iff.mp
    rcases List.mem_cons.mp hc with rfl | hc
    · apply hlisted
    · apply listed_of_mem_dataColumns hc

/-- A row has as many cells as there are data columns. -/
theorem length_cells_of_row? {s : Source} {fields : List String} {row : Row}
    (h : s.row? fields = some row) :
  row.cells.length = s.data.length
  := by
  obtain ⟨x, -, rfl⟩ := Option.map_eq_some_iff.mp h
  apply List.length_map

/-- Under any headers, the columns of a source are the abscissa and, without repetitions, those that
are asked for, and each row of the file has one cell for every column behind the abscissa. -/
theorem selects_of_headers {header : List String} (hne : header ≠ []) (file : ResultFile)
    (how : Reading) :
  ∃ s, ofHeaders? file.source (header.map Text.trim) how.configured how.timeColumn = some s ∧
    s.name = file.source ∧
    Selects (header.map Text.trim) how.configured how.timeColumn s ∧
    (∀ fields row, s.row? fields = some row → row.cells.length = s.data.length) ∧
    ∀ (d : Disk) (text : String) (records : List (List String)),
      (d.content? file.path).bind Content.text? = some text →
      Csv.records how.delimiter text = header :: records →
      load? file how d = .ok (some (s, records.filterMap s.row?)) d
  := by
  have htrimmed : header.map Text.trim ≠ [] := List.map_eq_nil_iff.not.mpr hne
  obtain ⟨s, hsource, hname, hselects⟩ :=
    exists_ofHeaders? htrimmed file.source how.configured how.timeColumn
  refine ⟨s, hsource, hname, hselects, ?_, ?_⟩
  · intro fields row
    apply length_cells_of_row?
  · intro d text records htext hrecords
    apply load?_of_records htext hrecords hsource

/-- The headers of a table with a step count, the time and a setting. -/
def mixedHeaders : List String := ["StepCount", " Time", "speed", "settings.dt", "torque "]

/-- A reading with indices that repeat, that do not exist, and with that of the time. -/
def mixedReading : Reading := ⟨[4, 1, 9, 2, 4], "Time", ','⟩

/-- From a mixed header the configured columns are selected, whatever follows it. -/
theorem selects_of_headers_mixed :
  mixedHeaders ≠ [] ∧
  ∃ s, ofHeaders? engineFile.source (mixedHeaders.map Text.trim) mixedReading.configured
      mixedReading.timeColumn = some s ∧
    s.name = engineFile.source ∧
    Selects (mixedHeaders.map Text.trim) mixedReading.configured mixedReading.timeColumn s ∧
    (∀ fields row, s.row? fields = some row → row.cells.length = s.data.length) ∧
    ∀ (d : Disk) (text : String) (records : List (List String)),
      (d.content? engineFile.path).bind Content.text? = some text →
      Csv.records mixedReading.delimiter text = mixedHeaders :: records →
      load? engineFile mixedReading d = .ok (some (s, records.filterMap s.row?)) d
  := by
  have hne : mixedHeaders ≠ [] := List.cons_ne_nil _ _
  exact ⟨hne, selects_of_headers hne engineFile mixedReading⟩

/-- The configured columns behind the time, and all of them where none are configured. -/
example : dataIndices (mixedHeaders.map Text.trim) mixedReading.configured 1 = [4, 2] := by
  decide +kernel

example : dataIndices (mixedHeaders.map Text.trim) [] 1 = [2, 4] := by
  decide +kernel

end Cosim.Watch.Source
