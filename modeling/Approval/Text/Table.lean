import Approval.Text.Blank
import Approval.Text.Width

/-!
# Tables

Tables in boxes of line characters. A column is as wide as the widest line of its cells, and a cell with
several lines makes its row higher.
-/

namespace Approval.Text

/-- A table: the titles of its columns, and rows with a cell for each column. -/
structure Table where
  titles : List String
  rows : List (List String)

namespace Table

def cellWidth (cell : String) : Nat := ((split '\n' cell).map width).foldl max 1

/-- The widths of the columns. -/
def widths (t : Table) : List Nat :=
  t.rows.foldl (fun ws row => ws.zipWith max (row.map cellWidth)) (t.titles.map cellWidth)

/-- A line of a cell, filled up to the width of its column. -/
def pad (columns : Nat) (line : String) : String :=
  " " ++ line ++ String.ofList (List.replicate (columns - width line) ' ') ++ " "

/-- The lines of a row. -/
def rowLines (ws : List Nat) (row : List String) : List String :=
  let cells := row.map (split '\n')
  let height := (cells.map List.length).foldl max 0
  (List.range height).map fun i =>
    "│" ++ joinWith "┆" (cells.zipWith (fun ls w => pad w (ls.getD i "")) ws) ++ "│"

/-- A line across the table. -/
def rule (left fill crossing right : String) (ws : List Nat) : String :=
  left ++ joinWith crossing (ws.map fun w => joinWith "" (List.replicate (w + 2) fill)) ++ right

/-- The lines of a table. -/
def lines (t : Table) : List String :=
  let ws := t.widths
  rule "┌" "─" "┬" "┐" ws :: rowLines ws t.titles ++ rule "╞" "═" "╪" "╡" ws ::
    t.rows.flatMap (rowLines ws) ++ [rule "└" "─" "┴" "┘" ws]

end Table

end Approval.Text
