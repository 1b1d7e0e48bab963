import Cosim.Deploy.WatchPlan
import Cosim.Proofs.Entries
import Cosim.Proofs.Disk
import Cosim.Proofs.Fmu
import Cosim.Proofs.System.Component
import Cosim.Watch.Watcher

/-!
# Watched columns

A watch dictionary lists the columns of the outputs of every component, and a watcher reads just
these columns of the component's result file.  Only for a component without outputs the two do not
mean the same: the watcher takes the empty list for all columns.
-/

namespace Cosim

/-! ## Columns that are listed -/

/-- The component whose columns are listed under a name, which is the last one of the name. -/
def System.listed? (s : System) (name : String) : Option Component :=
  s.components.values.reverse.find? (·.name == name)

/-- Components with different names are listed under their names. -/
theorem System.listed?_of_nodup {s : System} {c : Component}
    (hnames : (s.components.values.map (·.name)).Nodup) (hc : c ∈ s.components.values) :
  s.listed? c.name = some c
  := by
  cases hfind : s.listed? c.name with
  | none =>
    have hnone := List.find?_eq_none.mp hfind c (List.mem_reverse.mpr hc)
    exact absurd (beq_self_eq_true c.name) hnone
  | some other =>
    have hother : other ∈ s.components.values :=
      List.mem_reverse.mp (List.mem_of_find?_eq_some hfind)
    have hname := List.find?_some hfind
    rw [List.inj_on_of_nodup_map hnames hother hc (beq_iff_eq.mp hname)]

/-- What is noted for each component is found under its name for the one that is listed. -/
theorem System.get?_ofPairs_listed? {α : Type} (s : System) (f : Component → α) (name : String) :
  (Entries.ofPairs (s.components.values.map fun c => (c.name, f c))).get? name =
    (s.listed? name).map f
  := Entries.get?_ofPairs_named Component.name f s.components.values name

/-- The number of outputs of a component. -/
def Component.outputCount (c : Component) : ℕ :=
  (c.scalarVariables.values.filter fun v => v.causalityOrLocal == .output).length

/-- The columns of the outputs follow each other from the third one on. -/
theorem Component.outputColumns_eq (c : Component) :
  c.outputColumns = List.range' 2 c.outputCount
  := rfl

namespace Watch

/-! ## Plans that are read back -/

namespace Plan

/-- An index of 64 bits is read back. -/
theorem index?_ofNat {n : ℕ} (h : n < Nat.pow 2 64) :
  index? (Value.ofNat n) = some n
  := by
  rw [Value.ofNat, index?, if_pos ⟨Int.natCast_nonneg n, by exact_mod_cast h⟩, Int.toNat_natCast]

/-- A list of columns in a watch dictionary. -/
def columnsValue (columns : List ℕ) : Value :=
  .object [("dataColumns", .list (columns.map .ofNat))]

/-- Columns are read back if their indices have 64 bits. -/
theorem columns?_columnsValue {columns : List ℕ} (h : ∀ n ∈ columns, n < Nat.pow 2 64) :
  columns? (columnsValue columns) = some columns
  := by
  have hindices : (columns.map Value.ofNat).mapM index? = some columns := by
    induction columns with
    | nil => rfl
    | cons n columns ih =>
      rw [List.forall_mem_cons] at h
      rw [List.map_cons, List.mapM_cons, index?_ofNat h.1, ih h.2]
      rfl
  exact hindices

/-- The columns of all sources are read back if their indices have 64 bits. -/
theorem entriesField?_columns {es : Entries (List ℕ)} (h : ∀ e ∈ es, ∀ n ∈ e.2, n < Nat.pow 2 64) :
  Dictionary.entriesField? columns?
    (some (.object (es.map fun e => (e.1, columnsValue e.2)))) = some es
  := by
  rw [Dictionary.entriesField?]
  induction es with
  | nil => rfl
  | cons e es ih =>
    rw [List.forall_mem_cons] at h
    rw [List.map_cons, List.mapM_cons, ih h.2]
    simp only [columns?_columnsValue h.1]
    rfl

/-- The name of the simulation is read back whatever its end time is. -/
theorem simulation?_section (name : String) (stopTime : Option Double) :
  ∃ endTime, simulation? (some (.object (("name", .text name) ::
    stopTime.toList.map fun x => ("endTime", Value.ofReal x)))) = some (some name, endTime)
  := by
  cases stopTime with
  | none => exact ⟨none, rfl⟩
  | some x => exact ⟨(Dictionary.optionalValue (some (Value.ofReal x))).bind Value.asReal, rfl⟩

/-- The data columns in the watch dictionary of a system. -/
def columnsOf (s : System) : Entries (List ℕ) :=
  Entries.ofPairs (s.components.values.map fun c => (c.name, c.outputColumns))

/-- The plan lists the columns of each component under its name. -/
theorem sources_watchPlan (s : System) :
  Entries.ofPairs (s.components.values.map fun c =>
      (c.name, Value.object [("dataColumns", .list (c.outputColumns.map .ofNat))])) =
    (columnsOf s).map fun e => (e.1, columnsValue e.2)
  := by
  rw [columnsOf, ← Entries.ofPairs_map, List.map_map]
  rfl

/-- The plan that is read from the watch dictionary of a system. -/
theorem ofDictionary_watchPlan {s : System}
    (hsize : ∀ c ∈ s.components.values, c.outputCount + 2 ≤ Nat.pow 2 64)
    (name defaultName : String) (simulation : Option Simulation) (postProcessing : Option Value) :
  ∃ endTime, ofDictionary (s.watchPlan name simulation postProcessing) defaultName =
    .ok ⟨columnsOf s, ',', name, endTime, Cosim.timeColumn⟩
  := by
  have hcolumns : ∀ e ∈ columnsOf s, ∀ n ∈ e.2, n < Nat.pow 2 64 := by
    intro e he n hn
    obtain ⟨c, hc, rfl⟩ := List.mem_map.mp (Entries.mem_of_mem_ofPairs he)
    rw [Component.outputColumns_eq, List.mem_range'_1] at hn
    have := hsize c hc
    omega
  have hsources := entriesField?_columns hcolumns
  rw [← sources_watchPlan] at hsources
  have hread : ofDictionary? (s.watchPlan name simulation postProcessing) defaultName =
      (simulation? (some (.object (("name", .text name) ::
        (simulation.bind (·.stopTime)).toList.map fun x => ("endTime", Value.ofReal x))))).bind
        fun run => (Dictionary.entriesField? columns? (some (.object
          (Entries.ofPairs (s.components.values.map fun c => (c.name,
            Value.object [("dataColumns", .list (c.outputColumns.map .ofNat))])))))).bind
          fun columns => some ⟨columns, ',', run.1.getD defaultName, run.2,
            Cosim.timeColumn⟩ :=
    rfl
  obtain ⟨endTime, hsimulation⟩ := simulation?_section name (simulation.bind (·.stopTime))
  refine ⟨endTime, ?_⟩
  rw [ofDictionary, hread, hsimulation, Option.bind_some, hsources]
  rfl

end Plan

/-! ## Columns of result files -/

namespace Source

variable {headers : List String} {abscissa : Column} {n k : ℕ}

/-- A column has its place in the header for an index. -/
theorem getElem?_columnsOf (headers : List String) (i : ℕ) :
  (columnsOf headers)[i]? = headers[i]?.map (⟨i, ·⟩)
  := by
  rw [columnsOf, List.getElem?_map, List.getElem?_zipIdx, Option.map_map, Nat.zero_add]
  rfl

/-- The indices of all columns are all places of the header. -/
theorem map_index_columnsOf (headers : List String) :
  (columnsOf headers).map (·.index) = List.range headers.length
  := by
  rw [columnsOf, List.map_map, List.range_eq_range', ← List.zipIdx_map_snd 0 headers]
  rfl

/-- The headers of all columns are the header. -/
theorem map_header_columnsOf (headers : List String) :
  (columnsOf headers).map (·.header) = headers
  := by
  rw [columnsOf, List.map_map]
  apply List.zipIdx_map_fst 0 headers

/-- The columns from `n` on, as many as are asked for. -/
def slice (headers : List String) (n k : ℕ) : List Column := ((columnsOf headers).drop n).take k

/-- The columns of a slice lie between its start and its end. -/
theorem index_of_mem_slice {c : Column} (h : c ∈ slice headers n k) :
  n ≤ c.index ∧ c.index < n + k
  := by
  obtain ⟨i, hi⟩ := List.mem_iff_getElem?.mp h
  rw [slice, List.getElem?_take] at hi
  split at hi
  · rw [List.getElem?_drop, getElem?_columnsOf] at hi
    obtain ⟨header, -, rfl⟩ := Option.map_eq_some_iff.mp hi
    simp only
    omega
  · cases hi

/-- Configured columns in a row are read as they stand, if the abscissa is in front of them. -/
theorem configuredColumns_range' (habscissa : abscissa.index < n) (hwide : n + k ≤ headers.length) :
  configuredColumns (columnsOf headers) abscissa (List.range' n k) = slice headers n k
  := by
  induction k with
  | zero => rfl
  | succ k ih =>
    rw [configuredColumns, List.range'_concat, List.foldl_append, ← configuredColumns,
      ih (by omega), Nat.one_mul, List.foldl_cons, List.foldl_nil]
    obtain ⟨header, hheader⟩ : ∃ header, headers[n + k]? = some header :=
      ⟨_, List.getElem?_eq_getElem (by omega)⟩
    have hcolumn : (columnsOf headers)[n + k]? = some ⟨n + k, header⟩ := by
      rw [getElem?_columnsOf, hheader, Option.map_some]
    have hne : (⟨n + k, header⟩ : Column) ≠ abscissa := by
      rintro rfl
      simp only at habscissa
      omega
    have hnew : ¬ (⟨n + k, header⟩ : Column) ∈ slice headers n k := by
      intro hmem
      have := (index_of_mem_slice hmem).2
      simp only at this
      omega
    rw [hcolumn]
    simp only [beq_eq_false_iff_ne.mpr hne, Bool.false_or, List.contains_iff_mem, if_neg hnew]
    rw [slice, slice, List.take_add_one, List.getElem?_drop, hcolumn, Option.toList_some]

/-- The indices of a slice follow each other, if the header is that wide. -/
theorem map_index_slice (hwide : n + k ≤ headers.length) :
  (slice headers n k).map (·.index) = List.range' n k
  := by
  rw [slice, List.map_take, List.map_drop, map_index_columnsOf]
  apply List.ext_getElem
  · simp only [List.length_take, List.length_drop, List.length_range, List.length_range']
    omega
  · intro i _ _
    simp only [List.getElem_take, List.getElem_drop, List.getElem_range, List.getElem_range',
      Nat.one_mul]

/-- The headers of a slice are those from its start on. -/
theorem map_header_slice (headers : List String) (n k : ℕ) :
  (slice headers n k).map (·.header) = (headers.drop n).take k
  := by
  rw [slice, List.map_take, List.map_drop, map_header_columnsOf]

/-! ## Result tables of components -/

/-- The headers of the result table of a component. -/
def tableHeaders (more : List String) : List String := timeColumn :: "StepCount" :: more

/-- A table with a time column makes a source whose abscissa is the first column. -/
theorem ofHeaders?_tableHeaders (name : String) (more : List String) (configured : List ℕ) :
  ofHeaders? name (tableHeaders more) configured timeColumn =
    some ⟨name, ⟨0, timeColumn⟩,
      dataColumns (columnsOf (tableHeaders more)) ⟨0, timeColumn⟩ configured⟩
  := rfl

/-- Without configured columns, everything but step counts and settings is read. -/
theorem dataColumns_nil (more : List String) :
  dataColumns (columnsOf (tableHeaders more)) ⟨0, timeColumn⟩ [] =
    ((columnsOf (tableHeaders more)).drop 2).filter isData
  := by
  have hcolumns : columnsOf (tableHeaders more) =
      ⟨0, timeColumn⟩ :: ⟨1, "StepCount"⟩ :: (columnsOf (tableHeaders more)).drop 2 :=
    rfl
  have hbehind : ∀ c ∈ (columnsOf (tableHeaders more)).drop 2,
      (c != ⟨0, timeColumn⟩ && isData c) = isData c := by
    intro c hc
    obtain ⟨i, hi⟩ := List.mem_iff_getElem?.mp hc
    rw [List.getElem?_drop, getElem?_columnsOf] at hi
    obtain ⟨header, -, rfl⟩ := Option.map_eq_some_iff.mp hi
    have hne : (⟨2 + i, header⟩ : Column) ≠ ⟨0, timeColumn⟩ := by
      intro heq
      have hindex := congrArg Column.index heq
      simp only at hindex
      omega
    rw [bne_iff_ne.mpr hne, Bool.true_and]
  rw [dataColumns, if_pos List.isEmpty_nil, hcolumns, List.filter_cons_of_neg (by decide),
    List.filter_cons_of_neg (by decide), List.filter_congr hbehind]
  rfl

end Source

/-- A result file whose table has given headers. -/
def HasHeaders (d : Disk) (file : ResultFile) (headers : List String) : Prop :=
  ∃ text fields records, (d.content? file.path).bind Content.text? = some text ∧
    Csv.records ',' text = fields :: records ∧ fields.map Text.trim = headers

/-- A result file is loaded as the source of its header and the rows of its records. -/
theorem Source.load?_of_records {d : Disk} {file : ResultFile} {how : Reading} {text : String}
    {header : List String} {records : List (List String)} {s : Source}
    (htext : (d.content? file.path).bind Content.text? = some text)
    (hrecords : Csv.records how.delimiter text = header :: records)
    (hsource : ofHeaders? file.source (header.map Text.trim) how.configured how.timeColumn =
      some s) :
  load? file how d = .ok (some (s, records.filterMap s.row?)) d
  := by
  rw [load?, Action.get_bind, htext]
  simp only [ofText?, hrecords, hsource, Option.map_some]
  rfl

/-- A result file is read with the columns that a plan has for its source. -/
theorem readSources_of_hasHeaders {d : Disk} {file : ResultFile} {headers : List String}
    {source : String} {configured : List ℕ} {read : Source} (plan : Plan)
    (hfile : HasHeaders d file headers) (hdelimiter : plan.delimiter = ',')
    (hconfigured : (plan.dataColumns.get? source).getD [] = configured)
    (hread : Source.ofHeaders? file.source headers configured plan.timeColumn = some read) :
  ∃ rows, Watcher.readSources plan [(source, file)] d = .ok [(read, rows)] d
  := by
  obtain ⟨text, fields, records, htext, hrecords, rfl⟩ := hfile
  refine ⟨records.filterMap read.row?, ?_⟩
  rw [← hdelimiter] at hrecords
  have hload : Source.load? file ⟨configured, plan.timeColumn, plan.delimiter⟩ d =
      .ok (some (read, records.filterMap read.row?)) d :=
    Source.load?_of_records htext hrecords hread
  rw [Watcher.readSources, hconfigured, Action.bind_of_ok hload]
  rfl

/-- The columns that a watch dictionary lists for a component are those that are read of its result
table; without outputs, all columns are read. -/
theorem watched_columns {s : System} {c : Component} {source : String} {d : Disk}
    {file : ResultFile} {more : List String}
    (hsize : ∀ c ∈ s.components.values, c.outputCount + 2 ≤ Nat.pow 2 64)
    (hc : s.listed? source = some c)
    (hfile : HasHeaders d file (Source.tableHeaders more)) (hwide : c.outputCount ≤ more.length)
    (name defaultName : String) (simulation : Option Simulation) (postProcessing : Option Value) :
  ∃ plan read rows,
    Plan.ofDictionary (s.watchPlan name simulation postProcessing) defaultName = .ok plan ∧
    Watcher.readSources plan [(source, file)] d = .ok [(read, rows)] d ∧
    read.abscissa = ⟨0, timeColumn⟩ ∧
    (0 < c.outputCount → read.data.map (·.index) = List.range' 2 c.outputCount ∧
      read.data.map (·.header) = more.take c.outputCount) ∧
    (c.outputCount = 0 → read.data =
      ((Source.columnsOf (Source.tableHeaders more)).drop 2).filter Source.isData)
  := by
  obtain ⟨endTime, hplan⟩ :=
    Plan.ofDictionary_watchPlan hsize name defaultName simulation postProcessing
  have hconfigured : ((Plan.columnsOf s).get? source).getD [] = c.outputColumns := by
    rw [Plan.columnsOf, System.get?_ofPairs_listed?, hc, Option.map_some, Option.getD_some]
  obtain ⟨rows, hrows⟩ := readSources_of_hasHeaders
    ⟨Plan.columnsOf s, ',', name, endTime, timeColumn⟩ hfile rfl hconfigured
    (Source.ofHeaders?_tableHeaders file.source more c.outputColumns)
  refine ⟨_, _, rows, hplan, hrows, rfl, ?_, ?_⟩
  · intro hpos
    have hlength : 2 + c.outputCount ≤ (Source.tableHeaders more).length := by
      simp only [Source.tableHeaders, List.length_cons]
      omega
    have hsome : ¬ c.outputColumns.isEmpty = true := by
      rw [Component.outputColumns_eq, List.isEmpty_iff, List.range'_eq_nil_iff]
      omega
    have hfront : (⟨0, timeColumn⟩ : Column).index < 2 := Nat.two_pos
    rw [Source.dataColumns, if_neg hsome, Component.outputColumns_eq,
      Source.configuredColumns_range' hfront hlength, Source.map_index_slice hlength,
      Source.map_header_slice]
    exact ⟨rfl, rfl⟩
  · intro hzero
    have hnone : c.outputColumns = [] := by
      rw [Component.outputColumns_eq, hzero]
      rfl
    rw [hnone]
    apply Source.dataColumns_nil

/-! ## Engines with and without an output -/

/-- A model with one input. -/
def throttle : Fmu where
  file := "/throttle.fmu"
  description := ⟨⟨"fmiModelDescription", [], [.element "ModelVariables" []
    [.element "ScalarVariable" [("name", "throttle"), ("causality", "input")] []]]⟩⟩

def engine (fmu : Fmu) : Component := .ofFmu "engine" fmu [] []

def engineSystem (fmu : Fmu) : System := ⟨[("engine", engine fmu)], []⟩

def engineFile : ResultFile where
  source := "engine"
  path := "/engine_20240101_120000_1.csv"
  stamp := ⟨20240101, 120000, 1⟩

/-- The results of an engine with one variable. -/
def engineText (header : String) : String := "Time,StepCount," ++ header ++ "\n0,0,1\n"

def engineDisk (header : String) : Disk where
  items := [(["engine_20240101_120000_1.csv"], .file (.ofText (engineText header)) false)]
  current := []

/-- The engine is listed under its name. -/
theorem listed?_engineSystem (fmu : Fmu) :
  (engineSystem fmu).listed? "engine" = some (engine fmu)
  := by
  have hnames : ((engineSystem fmu).components.values.map (·.name)).Nodup := List.nodup_singleton _
  exact System.listed?_of_nodup (c := engine fmu) hnames (List.mem_singleton_self _)

/-- The one output of the engine is watched in the third column. -/
theorem watched_columns_speed :
  (∀ c ∈ (engineSystem Fmu.speed).components.values, c.outputCount + 2 ≤ Nat.pow 2 64) ∧
  (engineSystem Fmu.speed).listed? "engine" = some (engine Fmu.speed) ∧
  HasHeaders (engineDisk "speed") engineFile (Source.tableHeaders ["speed"]) ∧
  (engine Fmu.speed).outputCount = 1 ∧
  ∃ plan read rows,
    Plan.ofDictionary ((engineSystem Fmu.speed).watchPlan "case" none none) "case" = .ok plan ∧
    Watcher.readSources plan [("engine", engineFile)] (engineDisk "speed") =
      .ok [(read, rows)] (engineDisk "speed") ∧
    read.abscissa = ⟨0, timeColumn⟩ ∧
    (0 < (engine Fmu.speed).outputCount →
      read.data.map (·.index) = List.range' 2 (engine Fmu.speed).outputCount ∧
      read.data.map (·.header) = ["speed"].take (engine Fmu.speed).outputCount) ∧
    ((engine Fmu.speed).outputCount = 0 → read.data =
      ((Source.columnsOf (Source.tableHeaders ["speed"])).drop 2).filter Source.isData)
  := by
  have hsize : ∀ c ∈ (engineSystem Fmu.speed).components.values,
      c.outputCount + 2 ≤ Nat.pow 2 64 := by
    decide +kernel
  have hlisted := listed?_engineSystem Fmu.speed
  have hfile : HasHeaders (engineDisk "speed") engineFile (Source.tableHeaders ["speed"]) :=
    ⟨_, _, _, rfl, rfl, rfl⟩
  have hcount : (engine Fmu.speed).outputCount = 1 := by
    decide +kernel
  exact ⟨hsize, hlisted, hfile, hcount,
    watched_columns hsize hlisted hfile (by decide +kernel) "case" "case" none none⟩

/-- Of an engine without outputs, the input is read. -/
theorem watched_columns_throttle :
  (engineSystem throttle).listed? "engine" = some (engine throttle) ∧
  HasHeaders (engineDisk "throttle") engineFile (Source.tableHeaders ["throttle"]) ∧
  (engine throttle).outputCount = 0 ∧
  ∃ plan read rows,
    Plan.ofDictionary ((engineSystem throttle).watchPlan "case" none none) "case" = .ok plan ∧
    Watcher.readSources plan [("engine", engineFile)] (engineDisk "throttle") =
      .ok [(read, rows)] (engineDisk "throttle") ∧
    read.data.map (·.index) = [2]
  := by
  have hfile : HasHeaders (engineDisk "throttle") engineFile (Source.tableHeaders ["throttle"]) :=
    ⟨_, _, _, rfl, rfl, rfl⟩
  obtain ⟨endTime, hplan⟩ := Plan.ofDictionary_watchPlan (s := engineSystem throttle)
    (by decide +kernel) "case" "case" none none
  have hconfigured : ((Plan.columnsOf (engineSystem throttle)).get? "engine").getD [] = [] := by
    decide +kernel
  obtain ⟨rows, hrows⟩ := readSources_of_hasHeaders
    ⟨Plan.columnsOf (engineSystem throttle), ',', "case", endTime, timeColumn⟩ hfile rfl hconfigured
    (Source.ofHeaders?_tableHeaders engineFile.source ["throttle"] [])
  exact ⟨listed?_engineSystem throttle, hfile, by decide +kernel, _, _, rows, hplan, hrows,
    by decide +kernel⟩

end Watch

end Cosim
