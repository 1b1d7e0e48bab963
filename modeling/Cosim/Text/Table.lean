import Cosim.Text.Width

/-!
# Tables of text

Tables drawn with box characters.  A column is as wide as its widest line, and a cell with line
ends takes several lines.
-/

namespace Cosim.Text

structure Table where
  header : List String
  rows : List (List String)

namespace Table

/-- The lines of a cell. -/
def linesOf (cell : String) : List String := (cell.toList.splitOn '\n').map String.ofList

/-- The widest line of a cell. -/
def cellWidth (cell : String) : Nat := (linesOf cell).foldl (fun n line => max n (width line)) 0

/-- The widths of the columns. -/
def columnWidths (t : Table) : List Nat :=
  t.rows.foldl (fun widths row => widths.zipWith (fun n cell => max n (cellWidth cell)) row)
    (t.header.map cellWidth)

/-- A horizontal rule, which is wider than a column by a blank on either side. -/
def rule (left line cross right : String) (widths : List Nat) : String :=
  left ++ cross.intercalate (widths.map fun n => String.join (List.replicate (n + 2) line)) ++ right

/-- A line filled up with blanks. -/
def padded (n : Nat) (line : String) : String :=
  line ++ String.ofList (List.replicate (n - width line) ' ')

/-- The lines of a row. -/
def rowLines (widths : List Nat) (row : List String) : List String :=
  let cells := row.map linesOf
  let height := cells.foldl (fun n lines => max n lines.length) 0
  (List.range height).map fun i =>
    let texts := cells.zipWith (fun lines n => padded n (lines.getD i "")) widths
    "│ " ++ " ┆ ".intercalate texts ++ " │"

/-- The lines of the rows with a rule between any two. -/
def bodyLines (widths : List Nat) (rows : List (List String)) : List String :=
  [rule "├" "╌" "┼" "┤" widths].intercalate (rows.map (rowLines widths))

/-- The drawn table. -/
def render (t : Table) : String :=
  let widths := t.columnWidths
  "\n".intercalate
    ([rule "┌" "─" "┬" "┐" widths] ++ rowLines widths t.header ++ [rule "╞" "═" "╪" "╡" widths] ++
      bodyLines widths t.rows ++ [rule "└" "─" "┴" "┘" widths])

end Table

end Cosim.Text
