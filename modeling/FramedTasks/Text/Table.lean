import FramedTasks.Text.Width

/-! # Tables drawn with lines

A table has a row of titles and rows of cells. Every column is as wide as its widest line; a cell
with line feeds takes several lines of its row.
-/

namespace FramedTasks.Table

def cellLines (cell : String) : List String := cell.splitOn "\n"

/-- The width of each column, given the number of columns. -/
def widths (columns : Nat) (rows : List (List String)) : List Nat :=
  (List.range columns).map fun column =>
    ((rows.flatMap fun row => cellLines (row.getD column "")).map Width.ofText).foldl max 0

def fill (width : Nat) (text : String) : String :=
  text ++ String.ofList (List.replicate (width - Width.ofText text) ' ')

/-- A horizontal line from its corners, crossings and strokes. -/
def rule (left stroke crossing right : Char) (widths : List Nat) : String :=
  let strokes := widths.map fun width => String.ofList (List.replicate (width + 2) stroke)
  left.toString ++ crossing.toString.intercalate strokes ++ right.toString

def rowLines (widths : List Nat) (row : List String) : List String :=
  let cells := row.map cellLines
  let height := (cells.map List.length).foldl max 0
  (List.range height).map fun line =>
    let parts := (widths.zip cells).map fun (width, lines) => fill width (lines.getD line "")
    "│ " ++ " ┆ ".intercalate parts ++ " │"

def render (titles : List String) (rows : List (List String)) : List String :=
  let widths := widths titles.length (titles :: rows)
  [rule '┌' '─' '┬' '┐' widths] ++ rowLines widths titles ++
    [rule '╞' '═' '╪' '╡' widths] ++
    [rule '├' '╌' '┼' '┤' widths].intercalate (rows.map (rowLines widths)) ++
    [rule '└' '─' '┴' '┘' widths]

end FramedTasks.Table
