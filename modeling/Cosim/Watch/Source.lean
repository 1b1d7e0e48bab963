import Cosim.Csv
import Cosim.Text.Class
import Cosim.Watch.ResultFile

/-!
# Data sources

The columns of a result file that are read.  The abscissa is the time column, or the first one if
there is none of that name.  The data columns are the configured ones as far as they exist, or else
all that are neither step counts nor settings.
-/

namespace Cosim.Watch

/-- A column of a result file. -/
structure Column where
  index : Nat
  header : String
deriving DecidableEq

/-- The values at one abscissa; a cell may be empty. -/
structure Row where
  x : Double
  cells : List (Option Double)
deriving DecidableEq

structure Source where
  name : String
  abscissa : Column
  data : List Column
deriving DecidableEq

namespace Source

/-- The columns under headers. -/
def columnsOf (headers : List String) : List Column :=
  headers.zipIdx.map fun (header, index) => ⟨index, header⟩

/-- The time column, or else the first one. -/
def abscissa? (timeColumn : String) (columns : List Column) : Option Column :=
  (columns.find? (·.header == timeColumn)).or columns.head?

/-- Whether a column is read without being configured. -/
def isData (c : Column) : Bool := c.header != "StepCount" && !c.header.startsWith "settings"

/-- The configured columns that exist, each of them once and without the abscissa. -/
def configuredColumns (columns : List Column) (abscissa : Column) (configured : List Nat) :
    List Column :=
  configured.foldl (fun chosen index =>
    match columns[index]? with
    | some c => if c == abscissa || chosen.contains c then chosen else chosen ++ [c]
    | none => chosen) []

/-- The data columns. -/
def dataColumns (columns : List Column) (abscissa : Column) (configured : List Nat) :
    List Column :=
  if configured.isEmpty then columns.filter fun c => c != abscissa && isData c
  else configuredColumns columns abscissa configured

/-- The source under headers; there is none as long as there are no headers. -/
def ofHeaders? (name : String) (headers : List String) (configured : List Nat)
    (timeColumn : String) : Option Source :=
  let columns := columnsOf headers
  (abscissa? timeColumn columns).map fun abscissa =>
    ⟨name, abscissa, dataColumns columns abscissa configured⟩

/-- All columns that are read, the abscissa first. -/
def columns (s : Source) : List Column := s.abscissa :: s.data

/-- The names of the data columns in a table of several sources. -/
def displayNames (s : Source) : List String := s.data.map fun c => s!"{s.name}|{c.header}"

/-! ## Rows -/

/-- The number in a field of a record. -/
def number? (fields : List String) (c : Column) : Option Double :=
  fields[c.index]?.bind fun s => Literal.real? (Text.trimList s.toList)

/-- The row that a record gives; a record without an abscissa gives none. -/
def row? (s : Source) (fields : List String) : Option Row :=
  (number? fields s.abscissa).map fun x => ⟨x, s.data.map (number? fields)⟩

/-! ## Files -/

/-- How result files are read. -/
structure Reading where
  configured : List Nat
  timeColumn : String
  delimiter : Char

/-- The source and the rows in a text, if it has headers. -/
def ofText? (name : String) (how : Reading) (text : String) : Option (Source × List Row) :=
  match Csv.records how.delimiter text with
  | [] => none
  | headers :: records =>
    (ofHeaders? name (headers.map Text.trim) how.configured how.timeColumn).map fun s =>
      (s, records.filterMap s.row?)

/-- Reads a result file. -/
def load? (file : ResultFile) (how : Reading) : Action (Option (Source × List Row)) := do
  match ((← get).content? file.path).bind Content.text? with
  | some text => pure (ofText? file.source how text)
  | none => throw .tableFormat

end Source

end Cosim.Watch
