import ContainerSizing.Text.Columns

namespace ContainerSizing.Report

structure Table where
  header : List String
  rows : List (List String)

namespace Table

-- Lines of a cell; the empty cell has one.
def lines (cell : String) : List String :=
  cell.splitOn "\n"

def cellWidth (cell : String) : Nat :=
  ((lines cell).map Text.columns).foldl max 0

-- The width of every column.
def widths (t : Table) : List Nat :=
  t.rows.foldl (fun ws row => List.zipWith max ws (row.map cellWidth)) (t.header.map cellWidth)

def fill (width : Nat) (line : String) : String :=
  " " ++ line.pushn ' ' (width - Text.columns line) ++ " "

-- One line of a row; a cell with fewer lines is blank there.
def rowLine (widths : List Nat) (cells : List (List String)) (i : Nat) : String :=
  let filled := List.zipWith (fun width cell => fill width (cell.getD i "")) widths cells
  "│" ++ "│".intercalate filled ++ "│"

def rowLines (widths : List Nat) (row : List String) : List String :=
  let cells := row.map lines
  let height := (cells.map List.length).foldl max 0
  (List.range height).map (rowLine widths cells)

def rule (left middle right : String) (widths : List Nat) : String :=
  left ++ middle.intercalate (widths.map fun width => "".pushn '─' (width + 2)) ++ right

def render (t : Table) : String :=
  let widths := t.widths
  "\n".intercalate
    ([rule "╭" "┬" "╮" widths] ++ rowLines widths t.header ++ [rule "├" "┼" "┤" widths] ++
      t.rows.flatMap (rowLines widths) ++ [rule "╰" "┴" "╯" widths])

end Table

end ContainerSizing.Report
