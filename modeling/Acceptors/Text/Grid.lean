/-!
Contract: rows of cells inside a frame with rounded corners.

Owns: the width of columns, the padding of cells and the lines of the frame.
Does not own: the text of the cells.

Cells are aligned to the left between one blank on each side, and every column is
as wide as its widest cell. One line separates the first row from the others.
-/

namespace Acceptors.Text.Grid

abbrev Row := List String

/-- The wider of two lists of widths, column by column. -/
def widen : List Nat → List Nat → List Nat
  | [], widths => widths
  | widths, [] => widths
  | left :: leftRest, right :: rightRest => max left right :: widen leftRest rightRest

def columnWidths (rows : List Row) : List Nat :=
  rows.foldl (fun widths row => widen widths (row.map String.length)) []

/-- Text filled up with blanks to a width. -/
def pad (width : Nat) (cell : String) : String :=
  cell ++ String.ofList (List.replicate (width - cell.length) ' ')

def rule (left middle right : String) (widths : List Nat) : String :=
  left ++ middle.intercalate (widths.map fun width =>
    String.ofList (List.replicate (width + 2) '─')) ++ right

def rowLine (widths : List Nat) (row : Row) : String :=
  "│ " ++ " │ ".intercalate (List.zipWith pad widths row) ++ " │"

/-- The lines of a grid with a header row. -/
def lines (header : Row) (rows : List Row) : List String :=
  let widths := columnWidths (header :: rows)
  rule "╭" "┬" "╮" widths :: rowLine widths header :: rule "├" "┼" "┤" widths ::
    (rows.map (rowLine widths) ++ [rule "╰" "┴" "╯" widths])

/-- The grid as one text, without a line feed behind the last line. -/
def render (header : Row) (rows : List Row) : String :=
  "\n".intercalate (lines header rows)

end Acceptors.Text.Grid
