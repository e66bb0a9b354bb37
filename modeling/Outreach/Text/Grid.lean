import Outreach.Text.Split
import Outreach.Text.Width

/-!
# Drawn tables

A table drawn with lines. Every column is as wide as its widest cell and one blank more on either
side; a cell whose text has several lines makes its row as high as that.
-/

namespace Outreach

/-- A table with a header. -/
structure Grid where
  header : List String
  rows : List (List String)

namespace Grid

/-- The lines of a cell. -/
def cellLines (cell : String) : List (List Char) :=
  Text.split '\n' cell.toList

/-- The columns that a cell takes. -/
def cellWidth (cell : String) : Nat :=
  ((cellLines cell).map Text.width).foldl max 0

/-- The widths of the columns, told from left to right. -/
def columnWidths (grid : Grid) : List Nat :=
  (List.range grid.header.length).map fun i =>
    ((grid.header :: grid.rows).map fun row => cellWidth (row.getD i "")).foldl max 0

/-- A line that is drawn across the whole table. -/
def ruler (left fill cross right : Char) (widths : List Nat) : String :=
  String.ofList
    (left :: List.intercalate [cross] (widths.map fun w => List.replicate (w + 2) fill) ++ [right])

/-- A text filled up with blanks. -/
def fit (width : Nat) (cs : List Char) : List Char :=
  cs ++ List.replicate (width - Text.width cs) ' '

/-- One line of a row. -/
def rowLine (widths : List Nat) (cells : List (List Char)) : String :=
  String.ofList
    ('│' :: List.intercalate ['┆']
      (widths.zipWith (fun w cs => ' ' :: fit w cs ++ [' ']) cells) ++ ['│'])

/-- The lines of a row. -/
def rowLines (widths : List Nat) (row : List String) : List String :=
  let cells := row.map cellLines
  let height := (cells.map List.length).foldl max 0
  (List.range height).map fun i => rowLine widths (cells.map fun lines => lines.getD i [])

/-- The lines of a table. -/
def lines (grid : Grid) : List String :=
  let widths := grid.columnWidths
  [ruler '┌' '─' '┬' '┐' widths] ++ rowLines widths grid.header ++
    [ruler '╞' '═' '╪' '╡' widths] ++ grid.rows.flatMap (rowLines widths) ++
    [ruler '└' '─' '┴' '┘' widths]

end Grid

end Outreach
