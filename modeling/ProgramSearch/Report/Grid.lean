import ProgramSearch.Text.Width

/-!
# Grids

A grid of texts drawn with rounded corners: a frame, a rule below the first row, and each column
as wide as its widest cell. A cell of several lines is set as one block.
-/
namespace ProgramSearch.Report

structure Grid where
  rows : List (List String)
  /-- The columns whose cells stand to the right. -/
  right : List Nat
deriving Repr, DecidableEq

namespace Grid

def lines (cell : String) : List String := cell.splitOn "\n"

/-- The width of a cell's widest line. -/
def cellWidth (cell : String) : Nat := ((lines cell).map Text.width).foldl max 0

def cell (row : List String) (column : Nat) : String := (row[column]?).getD ""

def columns (g : Grid) : Nat := ((g.rows.map List.length).max?).getD 0

/-- The width of each column, without the blank on either side. -/
def widths (g : Grid) : List Nat :=
  (List.range g.columns).map fun column =>
    (g.rows.map fun row => cellWidth (cell row column)).foldl max 0

/-- Line `k` of a cell, filled up to the width of its column. -/
def placed (text : String) (width : Nat) (right : Bool) (k : Nat) : String :=
  let line := ((lines text)[k]?).getD ""
  let block := line ++ Text.blanks (cellWidth text - Text.width line)
  let gap := Text.blanks (width - cellWidth text)
  " " ++ (if right then gap ++ block else block ++ gap) ++ " "

/-- The lines of a row, each between bars. -/
def rowLines (g : Grid) (row : List String) : List String :=
  let height := ((row.map fun text => (lines text).length).max?).getD 1
  (List.range height).map fun k =>
    let cells := g.widths.zipIdx.map fun (width, column) =>
      placed (cell row column) width (g.right.contains column) k
    "│" ++ "│".intercalate cells ++ "│"

/-- A horizontal line, with signs for its left end, its crossings and its right end. -/
def rule (g : Grid) (left crossing right : String) : String :=
  let bars := g.widths.map fun width => String.ofList (List.replicate (width + 2) '─')
  left ++ crossing.intercalate bars ++ right

/-- The drawn grid; a grid without cells is the empty text. The rule below the first row takes
the place of the lower frame when there is no other row. -/
def draw (g : Grid) : String :=
  match g.rows with
  | [] => ""
  | first :: rest =>
    if g.columns == 0 then ""
    else
      let head := [g.rule "╭" "┬" "╮"] ++ g.rowLines first ++ [g.rule "├" "┼" "┤"]
      let tail := if rest.isEmpty then [] else
        rest.flatMap g.rowLines ++ [g.rule "╰" "┴" "╯"]
      "\n".intercalate (head ++ tail)

end Grid

end ProgramSearch.Report
