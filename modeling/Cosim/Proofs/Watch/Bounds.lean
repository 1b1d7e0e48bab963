import Cosim.Proofs.Watch.Dumping
import Cosim.Proofs.Watch.Selection

/-!
# Looking within bounds

Reading plans, and reading and joining result files, with every bound checked.  The columns of a
source are indices here, a joined table is filled row by row at places that a map gives, and an
index, a slice or a difference that is out of bounds yields nothing.  None ever is: the checked
operations give just what the operations without checks give.
-/

namespace Cosim.Watch

open Dictionary (Field record? optionalText? entriesField?)
open Source (IsDataHeader timeIndex dataIndices)
open Table (overwrite overwriteFrom addRow addSources Wide width)

/-! ## Bounds -/

section Bounds

variable {α : Type}

/-- The items of a list from a place on, which does not lie behind its end. -/
def slice? (xs : List α) (start : ℕ) : Option (List α) :=
  if start ≤ xs.length then some (xs.drop start) else none

/-- A difference that is not negative. -/
def difference? (m n : ℕ) : Option ℕ := if n ≤ m then some (m - n) else none

theorem slice?_of_le {xs : List α} {start : ℕ} (h : start ≤ xs.length) :
  slice? xs start = some (xs.drop start)
  := if_pos h

theorem slice?_cons (x : α) (xs : List α) :
  slice? (x :: xs) 1 = some xs
  := slice?_of_le (Nat.succ_pos _)

theorem difference?_succ (n : ℕ) :
  difference? (n + 1) 1 = some n
  := if_pos (Nat.succ_pos _)

end Bounds

/-! ## Plans -/

/-- The delimiter of a plan: the first character of a text of one byte. -/
def delimiter? : Option String → Option Char
  | none => some ','
  | some s => if s.utf8ByteSize = 1 then s.toList[0]? else some ','

/-- What a watch dictionary says, before it is a plan. -/
structure Settings where
  dataColumns : Entries (List ℕ)
  delimiter : Option String
  simulation : Option String × Option Double
  timeColumn : Option String

namespace Settings

def ofDictionary? (d : Dictionary) : Option Settings := do
  let fields : List Field :=
    [.withDefault ["datasources"], .plain "delimiter", .withDefault ["simulation"],
      .plain "timeColumn"]
  match ← record? fields (.object d) with
  | [sources, delimiter, simulation, timeColumn] =>
    let simulation ← Plan.simulation? simulation
    let dataColumns ← entriesField? Plan.columns? sources
    let delimiter ← optionalText? delimiter
    let timeColumn ← optionalText? timeColumn
    pure ⟨dataColumns, delimiter, simulation, timeColumn⟩
  | _ => none

def plan? (s : Settings) (defaultName : String) : Option Plan := do
  let delimiter ← delimiter? s.delimiter
  pure ⟨s.dataColumns, delimiter, s.simulation.1.getD defaultName, s.simulation.2,
    s.timeColumn.getD "Time"⟩

/-- The plan of settings. -/
def plan (s : Settings) (defaultName : String) : Plan :=
  ⟨s.dataColumns, Plan.delimiterOf s.delimiter, s.simulation.1.getD defaultName, s.simulation.2,
    s.timeColumn.getD "Time"⟩

/-- The delimiter of a plan is always found. -/
theorem delimiter?_eq (text : Option String) :
  delimiter? text = some (Plan.delimiterOf text)
  := by
  cases text with
  | none => rfl
  | some s =>
    rw [delimiter?, Plan.delimiterOf]
    by_cases hsize : s.utf8ByteSize = 1
    · have hne : s.toList ≠ [] := by
        intro hnil
        rw [← String.ofList_toList (s := s), hnil] at hsize
        cases hsize
      obtain ⟨c, cs, hcs⟩ := List.exists_cons_of_ne_nil hne
      simp only [hsize, hcs, beq_self_eq_true, if_true]
      rfl
    · simp only [hsize, beq_iff_eq, if_false]

/-- Settings always make a plan. -/
theorem plan?_eq (s : Settings) (defaultName : String) :
  s.plan? defaultName = some (s.plan defaultName)
  := by
  rw [plan?, delimiter?_eq]
  rfl

/-- Reading a plan is reading settings. -/
theorem map_plan_ofDictionary? (d : Dictionary) (defaultName : String) :
  Plan.ofDictionary? d defaultName = (ofDictionary? d).map (·.plan defaultName)
  := by
  simp only [Plan.ofDictionary?, ofDictionary?, Option.bind_eq_bind, Option.map_bind]
  congr 1
  funext found
  rcases found with _ | ⟨sources, _ | ⟨delimiter, _ | ⟨simulation, _ | ⟨timeColumn, _ | _⟩⟩⟩⟩
  -- only four fields can be settings
  case cons.cons.cons.cons.nil =>
    simp only [Function.comp_def, Option.map_bind]
    rfl
  all_goals rfl

end Settings
/-! ## Sources -/

/-- A source with its columns as indices, the abscissa first. -/
structure Selection where
  name : String
  columns : List ℕ
  headers : List String
deriving DecidableEq

namespace Selection

/-- Those of some indices under which there are data. -/
def dataAt? (header : List String) (abscissa : ℕ) : List ℕ → Option (List ℕ)
  | [] => some []
  | i :: indices =>
    if i = abscissa then dataAt? header abscissa indices
    else do
      let text ← header[i]?
      let more ← dataAt? header abscissa indices
      pure (if IsDataHeader text then i :: more else more)

/-- The selected columns: the configured ones are added one by one. -/
def columns? (header : List String) (configured : List ℕ) (abscissa : ℕ) : Option (List ℕ) :=
  if configured = [] then
    (dataAt? header abscissa (List.range header.length)).map (abscissa :: ·)
  else
    some (configured.foldl (fun columns i =>
      if header.length ≤ i ∨ i ∈ columns then columns else columns ++ [i]) [abscissa])

def open? (name : String) (header : List String) (configured : List ℕ) (timeColumn : String) :
    Option Selection := do
  let columns ← columns? header configured (timeIndex header timeColumn)
  let headers ← columns.mapM fun i => header[i]?
  pure ⟨name, columns, headers⟩

/-- The header of the abscissa. -/
def abscissa? (s : Selection) : Option String := s.headers[0]?

def displayNames? (s : Selection) : Option (List String) :=
  (slice? s.headers 1).map fun headers => headers.map fun header => s!"{s.name}|{header}"

/-- The number of the data columns. -/
def width? (s : Selection) : Option ℕ := difference? s.columns.length 1

def row? (s : Selection) (fields : List String) : Option (Option Row) := do
  let abscissa ← s.columns[0]?
  let others ← slice? s.columns 1
  let number? (i : ℕ) : Option Double := Source.number? fields ⟨i, ""⟩
  pure ((number? abscissa).map fun x => ⟨x, others.map number?⟩)

/-- The rows of those records that have an abscissa. -/
def rows? (s : Selection) (records : List (List String)) : Option (List Row) :=
  (records.mapM s.row?).map List.reduceOption

def ofSource (s : Source) : Selection :=
  ⟨s.name, s.columns.map (·.index), s.columns.map (·.header)⟩

/-- A source and its rows, with indices for columns. -/
def ofRead (read : Source × List Row) : Selection × List Row := (ofSource read.1, read.2)

variable {header : List String} {abscissa : ℕ}

/-- Indices that the header lists give the data columns among them. -/
theorem dataAt?_of_listed {pairs : List (String × ℕ)}
    (h : ∀ pair ∈ pairs, header[pair.2]? = some pair.1) :
  dataAt? header abscissa (pairs.map Prod.snd) =
    some ((pairs.filter fun (text, i) => i ≠ abscissa ∧ IsDataHeader text).map Prod.snd)
  := by
  induction pairs with
  | nil => rfl
  | cons pair pairs ih =>
    obtain ⟨text, i⟩ := pair
    obtain ⟨htext, hpairs⟩ := List.forall_mem_cons.mp h
    rw [List.map_cons, dataAt?, ih hpairs]
    by_cases hi : i = abscissa
    · rw [if_pos hi, List.filter_cons_of_neg (by simp [hi])]
    · rw [if_neg hi, htext]
      by_cases hdata : IsDataHeader text
      · rw [List.filter_cons_of_pos (by simp [hi, hdata])]
        simp [hdata]
      · rw [List.filter_cons_of_neg (by simp [hdata])]
        simp [hdata]

/-- The loop over configured columns keeps the first occurrence of each that exists. -/
theorem foldl_configured (length abscissa : ℕ) (configured : List ℕ) :
  configured.foldl (fun columns i =>
      if length ≤ i ∨ i ∈ columns then columns else columns ++ [i]) [abscissa] =
    abscissa :: (configured.filter fun i => i < length ∧ i ≠ abscissa).eraseDups
  := by
  induction configured using List.reverseRecOn with
  | nil => rfl
  | append_singleton configured i ih =>
    rw [List.foldl_append, ih, List.foldl_cons, List.foldl_nil, List.filter_append]
    simp only [List.mem_cons, List.mem_eraseDups]
    by_cases hwanted : i < length ∧ i ≠ abscissa
    · rw [List.filter_cons_of_pos (by simpa using hwanted), List.filter_nil,
        Source.eraseDups_concat]
      simp only [Nat.not_le.mpr hwanted.1, hwanted.2, false_or]
      split <;> rfl
    · rw [List.filter_cons_of_neg (by simpa using hwanted), List.filter_nil, List.append_nil,
        if_pos]
      by_cases hlength : length ≤ i
      · exact .inl hlength
      · have hsame : i = abscissa := by
          by_contra hne
          exact hwanted ⟨Nat.not_le.mp hlength, hne⟩
        exact .inr (.inl hsame)

/-- The columns of a header are always found, the abscissa before the data columns. -/
theorem columns?_eq (header : List String) (configured : List ℕ) (abscissa : ℕ) :
  columns? header configured abscissa =
    some (abscissa :: dataIndices header configured abscissa)
  := by
  rw [columns?, dataIndices]
  split
  · have hlisted : ∀ pair ∈ header.zipIdx, header[pair.2]? = some pair.1 := by
      intro pair hpair
      apply List.mem_zipIdx_iff_getElem?.mp hpair
    rw [List.range_eq_range', ← List.zipIdx_map_snd 0 header, dataAt?_of_listed hlisted,
      Option.map_some]
  · rw [foldl_configured]

/-- A source that is selected from a header is opened with the same columns. -/
theorem open?_of_selects {configured : List ℕ} {timeColumn : String} {s : Source}
    (h : Source.Selects header configured timeColumn s) :
  open? s.name header configured timeColumn = some (ofSource s)
  := by
  have hheaders : (s.columns.map (·.index)).mapM (fun i => header[i]?) =
      some (s.columns.map (·.header)) := by
    rw [List.mapM_map]
    apply mapM_eq_some
    intro c hc
    apply Source.listed_iff.mpr (h.texts c hc)
  rw [open?, columns?_eq, ← h.indices, Option.bind_eq_bind, Option.bind_some, hheaders]
  rfl

variable (s : Source)

/-- A record is read as the row that the source reads, whatever its length. -/
theorem row?_ofSource (fields : List String) :
  (ofSource s).row? fields = some (s.row? fields)
  := by
  have hothers : slice? (ofSource s).columns 1 = some (s.data.map (·.index)) := slice?_cons _ _
  rw [row?, hothers, Source.row?]
  simp only [Option.bind_eq_bind, Option.bind_some, List.map_map]
  rfl

/-- Records are read as the rows that the source reads. -/
theorem rows?_ofSource (records : List (List String)) :
  (ofSource s).rows? records = some (records.filterMap s.row?)
  := by
  rw [rows?, mapM_eq_some fun fields _ => row?_ofSource s fields, Option.map_some,
    List.reduceOption, List.filterMap_map]
  rfl

/-- A source has one column more than it has data columns. -/
theorem width?_ofSource :
  (ofSource s).width? = some s.data.length
  := by
  rw [width?, ofSource, Source.columns, List.map_cons, List.length_cons, List.length_map,
    difference?_succ]

/-- The display names of a source are always found. -/
theorem displayNames?_ofSource :
  (ofSource s).displayNames? = some s.displayNames
  := by
  have hothers : slice? (ofSource s).headers 1 = some (s.data.map (·.header)) := slice?_cons _ _
  rw [displayNames?, hothers, Option.map_some, List.map_map]
  rfl

end Selection

/-! ## Joining -/

/-- A table that is being filled: the places of abscissas, and the rows at them. -/
structure Joining where
  places : List (Double × ℕ)
  rows : List Row

namespace Joining

/-- The place of the row at an abscissa, which is added if there is none. -/
def place? (total : ℕ) (j : Joining) (x : Double) : Option (Joining × ℕ) :=
  match j.places.lookup x with
  | some place => some (j, place)
  | none => do
    let rows := j.rows ++ [⟨x, List.replicate total none⟩]
    let place ← difference? rows.length 1
    pure (⟨j.places ++ [(x, place)], rows⟩, place)

/-- Writes values from a column on into the row at a place. -/
def write? (offset : ℕ) (values : List (Option Double)) (j : Joining) (place : ℕ) :
    Option Joining := do
  let r ← j.rows[place]?
  let behind ← slice? r.cells offset
  pure ⟨j.places, j.rows.set place ⟨r.x, r.cells.take offset ++ overwrite values behind⟩⟩

def add? (total offset : ℕ) (j : Joining) (row : Row) : Option Joining := do
  let (j, place) ← j.place? total row.x
  j.write? offset row.cells place

def addSources? (total offset : ℕ) (j : Joining) : List (Selection × List Row) → Option Joining
  | [] => some j
  | (s, added) :: sources => do
    let j ← added.foldlM (add? total offset) j
    let more ← s.width?
    addSources? total (offset + more) j sources

/-- Rows with the places that belong to them. -/
def ofRows (rows : List Row) : Joining := ⟨(rows.map Row.x).zipIdx, rows⟩

variable {total offset : ℕ} {row r : Row} {rows front back : List Row}

/-- A row with a new abscissa is added behind the others. -/
theorem addRow_of_forall_ne (h : ∀ r ∈ rows, r.x ≠ row.x) :
  addRow total offset row rows =
    rows ++ [⟨row.x, overwriteFrom offset row.cells (List.replicate total none)⟩]
  := by
  induction rows with
  | nil => rfl
  | cons r rows ih =>
    obtain ⟨hr, hrows⟩ := List.forall_mem_cons.mp h
    rw [addRow, if_neg hr, ih hrows, List.cons_append]

/-- A row with a known abscissa is written over the row that has it. -/
theorem addRow_append (hfront : ∀ r ∈ front, r.x ≠ row.x) (hr : r.x = row.x) :
  addRow total offset row (front ++ r :: back) =
    front ++ ⟨r.x, overwriteFrom offset row.cells r.cells⟩ :: back
  := by
  induction front with
  | nil => rw [List.nil_append, addRow, if_pos hr, List.nil_append]
  | cons first front ih =>
    obtain ⟨hfirst, hfront⟩ := List.forall_mem_cons.mp hfront
    rw [List.cons_append, addRow, if_neg hfirst, ih hfront, List.cons_append]

/-- An abscissa that no row has is at no place. -/
theorem lookup_of_forall_ne {x : Double} (h : ∀ r ∈ rows, r.x ≠ x) (place : ℕ) :
  ((rows.map Row.x).zipIdx place).lookup x = none
  := by
  rw [List.lookup_eq_none_iff]
  intro pair hpair
  obtain ⟨r, hr, hx⟩ := List.mem_map.mp (List.fst_mem_of_mem_zipIdx hpair)
  rw [bne_iff_ne, ← hx]
  exact (h r hr).symm

/-- A row at a new abscissa goes to the end. -/
theorem place?_of_forall_ne {x : Double} (h : ∀ r ∈ rows, r.x ≠ x) :
  (ofRows rows).place? total x =
    some (ofRows (rows ++ [⟨x, List.replicate total none⟩]), rows.length)
  := by
  have hlength : (rows ++ [(⟨x, List.replicate total none⟩ : Row)]).length = rows.length + 1 := by
    rw [List.length_append, List.length_singleton]
  rw [place?, ofRows]
  simp only [lookup_of_forall_ne h, hlength, difference?_succ, Option.bind_eq_bind,
    Option.bind_some]
  rw [ofRows, List.map_append, List.zipIdx_append, List.length_map, Nat.zero_add]
  rfl

/-- An abscissa that a row has is at the place of that row. -/
theorem place?_append {x : Double} (hfront : ∀ r ∈ front, r.x ≠ x) (hr : r.x = x) :
  (ofRows (front ++ r :: back)).place? total x = some (ofRows (front ++ r :: back), front.length)
  := by
  have hlookup : (ofRows (front ++ r :: back)).places.lookup x = some front.length := by
    rw [ofRows, List.map_append, List.zipIdx_append, List.lookup_append,
      lookup_of_forall_ne hfront, Option.none_or, List.map_cons, List.zipIdx_cons, hr,
      List.lookup_cons_self, List.length_map, Nat.zero_add]
  rw [place?, hlookup]

/-- Values are written into the row at their place, in which there is room from the offset on. -/
theorem write?_ofRows (hoffset : offset ≤ r.cells.length) (values : List (Option Double)) :
  (ofRows (front ++ r :: back)).write? offset values front.length =
    some (ofRows (front ++ ⟨r.x, overwriteFrom offset values r.cells⟩ :: back))
  := by
  have hget : (ofRows (front ++ r :: back)).rows[front.length]? = some r := by
    rw [ofRows, List.getElem?_append_right (Nat.le_refl _), Nat.sub_self]
    rfl
  rw [write?, hget, Option.bind_eq_bind, Option.bind_some, slice?_of_le hoffset]
  simp only [ofRows, List.set_append_right _ _ (Nat.le_refl _), Nat.sub_self, List.set_cons_zero,
    List.map_append, List.map_cons]
  rfl

/-- Adding a row at its place is adding it where its abscissa is found. -/
theorem add?_ofRows (h : Wide total rows) (hoffset : offset ≤ total) (row : Row) :
  (ofRows rows).add? total offset row = some (ofRows (addRow total offset row rows))
  := by
  cases hfind : rows.find? fun r => r.x = row.x with
  | none =>
    have hne : ∀ r ∈ rows, r.x ≠ row.x := by
      simpa using List.find?_eq_none.mp hfind
    have hcells : offset ≤ (List.replicate total (none : Option Double)).length := by
      rwa [List.length_replicate]
    rw [add?, place?_of_forall_ne hne, Option.bind_eq_bind, Option.bind_some,
      addRow_of_forall_ne hne]
    apply write?_ofRows hcells
  | some r =>
    obtain ⟨hr, front, back, rfl, hfront⟩ := List.find?_eq_some_iff_append.mp hfind
    have hne : ∀ r ∈ front, r.x ≠ row.x := by
      simpa using hfront
    have hsame : r.x = row.x := of_decide_eq_true hr
    have hcells : offset ≤ r.cells.length := by
      rw [h r (List.mem_append_right _ List.mem_cons_self)]
      exact hoffset
    rw [add?, place?_append hne hsame, Option.bind_eq_bind, Option.bind_some,
      addRow_append hne hsame]
    apply write?_ofRows hcells

/-- Rows are added one by one without a place or a column out of bounds. -/
theorem foldlM_add? (h : Wide total rows) (hoffset : offset ≤ total) (added : List Row) :
  added.foldlM (add? total offset) (ofRows rows) =
    some (ofRows (added.foldl (fun rows row => addRow total offset row rows) rows))
  := by
  induction added generalizing rows with
  | nil => rfl
  | cons row added ih =>
    rw [List.foldlM_cons, add?_ofRows h hoffset, Option.bind_eq_bind, Option.bind_some]
    apply ih (h.addRow offset row)

/-- The columns of all sources lie within the rows. -/
theorem addSources?_ofRows (h : Wide total rows) {sources : List (Source × List Row)}
    (hwidth : offset + width sources ≤ total) :
  addSources? total offset (ofRows rows) (sources.map Selection.ofRead) =
    some (ofRows (addSources total offset rows sources))
  := by
  induction sources generalizing offset rows with
  | nil => rfl
  | cons source sources ih =>
    obtain ⟨s, added⟩ := source
    rw [Table.width_cons] at hwidth
    have hmore : (Selection.ofRead (s, added)).1.width? = some s.data.length :=
      Selection.width?_ofSource s
    rw [List.map_cons, addSources?, foldlM_add? h (by omega), Option.bind_eq_bind,
      Option.bind_some, hmore, Option.bind_eq_bind, Option.bind_some]
    apply ih (h.addRows offset added)
    simpa only [Nat.add_assoc] using hwidth

end Joining

/-! ## Tables -/

namespace Table

/-- The header that the first source gives the abscissa. -/
def abscissa? : List (Selection × List Row) → Option String
  | [] => some ""
  | (s, _) :: _ => s.abscissa?

def join? (sources : List (Selection × List Row)) : Option Table := do
  let abscissa ← abscissa? sources
  let widths ← sources.mapM fun source => source.1.width?
  let j ← Joining.addSources? (widths.foldl (· + ·) 0) 0 ⟨[], []⟩ sources
  let columns ← sources.mapM fun source => source.1.displayNames?
  pure ⟨abscissa, columns.flatten, sorted j.rows⟩

def window? (t : Table) (w : Window) : Option Table := do
  let rows ← slice? t.rows (w.start t.rows.length)
  pure { t with rows := rows }

/-- Sources are joined without a place or a column out of bounds. -/
theorem join?_ofRead (sources : List (Source × List Row)) :
  join? (sources.map Selection.ofRead) = some (join sources)
  := by
  have habscissa : abscissa? (sources.map Selection.ofRead) = some (join sources).abscissa := by
    cases sources <;> rfl
  have hwidths : (sources.map Selection.ofRead).mapM (fun source => source.1.width?) =
      some (sources.map fun source => source.1.data.length) := by
    rw [List.mapM_map]
    exact mapM_eq_some fun source _ => Selection.width?_ofSource source.1
  have hcolumns : (sources.map Selection.ofRead).mapM (fun source => source.1.displayNames?) =
      some (sources.map fun source => source.1.displayNames) := by
    rw [List.mapM_map]
    exact mapM_eq_some fun source _ => Selection.displayNames?_ofSource source.1
  have htotal : (sources.map fun source => source.1.data.length).foldl (· + ·) 0 =
      width sources := by
    rw [List.foldl_map, foldl_width, Nat.zero_add]
  have hrows : Joining.addSources? (width sources) 0 ⟨[], []⟩ (sources.map Selection.ofRead) =
      some (Joining.ofRows (addSources (width sources) 0 [] sources)) := by
    have hnone : Wide (width sources) [] := List.forall_mem_nil _
    apply Joining.addSources?_ofRows hnone
    rw [Nat.zero_add]
  simp only [join?, habscissa, hwidths, htotal, hrows, hcolumns, Option.bind_eq_bind,
    Option.bind_some]
  rw [join, foldl_width, Nat.zero_add, List.flatMap_def]
  rfl

/-- A window never starts behind the end of the table. -/
theorem window?_eq (t : Table) (w : Window) :
  t.window? w = some (t.window w)
  := by
  have hstart : w.start t.rows.length ≤ t.rows.length := Nat.min_le_right _ _
  rw [window?, slice?_of_le hstart]
  rfl

end Table

end Cosim.Watch
