import Cosim.Watch.Source
import Cosim.Watch.Statistics

/-!
# Result tables

The rows of several data sources joined at equal abscissas and sorted by them.  A table can be cut
to a window of its rows, summed up in statistics, and written as comma-separated values.
-/

namespace Cosim.Watch

structure Table where
  abscissa : String
  columns : List String
  rows : List Row
deriving DecidableEq

namespace Table

/-! ## Joining -/

/-- Writes values over cells one by one, as far as both go. -/
def overwrite : List (Option Double) → List (Option Double) → List (Option Double)
  | value :: values, _ :: cells => value :: overwrite values cells
  | _, cells => cells

/-- Writes values over the cells from a column on. -/
def overwriteFrom (offset : Nat) (values cells : List (Option Double)) : List (Option Double) :=
  cells.take offset ++ overwrite values (cells.drop offset)

/-- Writes the cells of a row into the row at the same abscissa, which is added if there is none.
Abscissas are the same if their bits are. -/
def addRow (width offset : Nat) (row : Row) : List Row → List Row
  | [] => [⟨row.x, overwriteFrom offset row.cells (List.replicate width none)⟩]
  | r :: rows =>
    if r.x = row.x then ⟨r.x, overwriteFrom offset row.cells r.cells⟩ :: rows
    else r :: addRow width offset row rows

/-- Adds the rows of sources one after another; the columns of each source follow those of the
sources before it. -/
def addSources (width offset : Nat) (rows : List Row) : List (Source × List Row) → List Row
  | [] => rows
  | (s, added) :: sources =>
    addSources width (offset + s.data.length)
      (added.foldl (fun rows row => addRow width offset row rows) rows) sources

/-- The rows in increasing order of the abscissa. -/
def sorted (rows : List Row) : List Row := rows.mergeSort fun a b => decide (a.x.rank ≤ b.x.rank)

/-- Joins sources.  The abscissa has the name that the first source gives it. -/
def join (sources : List (Source × List Row)) : Table where
  abscissa := (sources.head?.map fun (s, _) => s.abscissa.header).getD ""
  columns := sources.flatMap fun (s, _) => s.displayNames
  rows :=
    let width := sources.foldl (fun n (s, _) => n + s.data.length) 0
    sorted (addSources width 0 [] sources)

/-! ## Windows -/

/-- Which rows of a table are shown. -/
structure Window where
  /-- the number of rows to leave out at the front -/
  skip : Option Nat
  /-- the number of rows to keep at the end; zero keeps all -/
  latest : Option Nat

/-- The first row that a window shows. -/
def Window.start (w : Window) (total : Nat) : Nat :=
  let fromSkip := w.skip.getD 0
  let fromLatest := match w.latest with
    | some latest => if latest = 0 then 0 else total - latest
    | none => 0
  min (max fromSkip fromLatest) total

def window (t : Table) (w : Window) : Table :=
  { t with rows := t.rows.drop (w.start t.rows.length) }

/-! ## Statistics -/

/-- The values in a column from the top, without the empty cells. -/
def values (t : Table) (column : Nat) : List Double :=
  t.rows.filterMap fun r => (r.cells[column]?).join

/-- The statistics of the columns with values; of several columns with one name the last counts. -/
def statistics (t : Table) : Entries Statistics :=
  Entries.ofPairs (t.columns.zipIdx.filterMap fun (name, column) =>
    (Statistics.ofValues? (t.values column)).map (name, ·))

/-- The statistics as a dictionary. -/
def toDictionary (t : Table) : Dictionary :=
  t.statistics.map fun (name, s) => (name, s.toValue)

/-! ## Text -/

/-- The fields of a row. -/
def fields (r : Row) : List String :=
  r.x.plain :: r.cells.map fun cell => (cell.map Double.plain).getD ""

/-- The table as comma-separated values under a line of headers. -/
def toCsv (t : Table) (delimiter : Char) : String :=
  Csv.write delimiter ((t.abscissa :: t.columns) :: t.rows.map fields)

end Table

end Cosim.Watch
