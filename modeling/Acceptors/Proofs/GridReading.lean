import Mathlib.Data.List.TakeWhile
import Acceptors.Proofs.GridLines
import Acceptors.Proofs.NumberLines

/-!
Contract: grids read back.

Owns: the division of joined lines, the reading of the cells on a line and of the
rows in a text, and the law that the rows of a grid are read from its text.
Does not own: the shape of the lines and the widths of the columns.

A line of cells is divided at its bars, and the blanks that fill a column are
dropped from both ends of a cell. No width is needed for that, so two grids with
the same text have the same rows, whatever their columns.
-/

namespace Acceptors.Text

/-! ## Joined lines -/

theorem splitLines_intercalate {Element : Type} [DecidableEq Element]
    {lineFeed carriageReturn : Element} {lines : List (List Element)} (nonempty : lines ≠ [])
    (noFeed : ∀ line ∈ lines, lineFeed ∉ line) (someLast : ∀ line ∈ lines, line ≠ [])
    (noReturn : ∀ line ∈ lines, line.getLast? ≠ some carriageReturn) :
    splitLines lineFeed carriageReturn ([lineFeed].intercalate lines) = lines := by
  have pieces : ([lineFeed].intercalate lines).splitOnP (· = lineFeed) = lines :=
    List.splitOn_intercalate lineFeed noFeed nonempty
  have kept : lines.dropLast.map (dropReturn carriageReturn) = lines.dropLast := by
    have same : ∀ line ∈ lines.dropLast, dropReturn carriageReturn line = id line :=
      fun line listed => if_neg (noReturn line (List.dropLast_subset lines listed))
    rw [List.map_congr_left same, List.map_id]
  obtain ⟨head, tail, isLast⟩ := List.exists_cons_of_ne_nil (someLast _ (List.getLast_mem nonempty))
  have joined := List.dropLast_concat_getLast nonempty
  rw [isLast] at joined
  rw [splitLines, pieces, kept, List.getLast?_eq_some_getLast nonempty, isLast]
  exact joined

/-- Lines that hold no line feed and end in some other character than a carriage
return are found again where they are joined. -/
theorem lines_intercalate {lines : List String} (nonempty : lines ≠ [])
    (noFeed : ∀ line ∈ lines, '\n' ∉ line.toList) (someLast : ∀ line ∈ lines, line.toList ≠ [])
    (noReturn : ∀ line ∈ lines, line.toList.getLast? ≠ some '\r') :
    Text.lines ("\n".intercalate lines) = lines := by
  have feed : "\n".toList = ['\n'] := rfl
  have divided : splitLines '\n' '\r' (['\n'].intercalate (lines.map String.toList)) =
      lines.map String.toList :=
    splitLines_intercalate (by simpa using nonempty) (by simpa using noFeed)
      (by simpa using someLast) (by simpa using noReturn)
  rw [Text.lines, String.toList_intercalate, feed, divided, map_ofList_toList]

/-! ## Blanks around a cell -/

/-- Blanks in front of and behind a text do not change what is left when it is trimmed. -/
theorem trimChars_append_blanks {before behind : List Char} (characters : List Char)
    (blanksBefore : ∀ character ∈ before, isBlank character = true)
    (blanksBehind : ∀ character ∈ behind, isBlank character = true) :
    trimChars (before ++ (characters ++ behind)) = trimChars characters := by
  rw [trimChars, trimChars, List.dropWhile_append_of_pos blanksBefore, List.dropWhile_append]
  split
  · rename_i allBlank
    rw [List.isEmpty_iff.mp allBlank, List.dropWhile_eq_nil_iff.mpr blanksBehind]
  · rw [List.reverse_append, List.dropWhile_append_of_pos]
    intro character listed
    exact blanksBehind character (List.mem_reverse.mp listed)

/-- A text whose first and last characters are no blanks has nothing to trim. -/
theorem trimChars_eq_self {characters : List Char}
    (first : ∀ character ∈ characters.head?, isBlank character = false)
    (last : ∀ character ∈ characters.getLast?, isBlank character = false) :
    trimChars characters = characters := by
  have unchanged {sequence : List Char}
      (head : ∀ character ∈ sequence.head?, isBlank character = false) :
      sequence.dropWhile isBlank = sequence := by
    cases sequence with
    | nil => rfl
    | cons character rest =>
        exact List.dropWhile_cons_of_neg (by simpa using head character rfl)
  rw [trimChars, unchanged first, unchanged, List.reverse_reverse]
  simpa using last

namespace Grid

/-! ## Cells on a line -/

/-- A text that can be read back from its place in a row. -/
structure IsCell (cell : String) : Prop where
  noBar : '│' ∉ cell.toList
  noFeed : '\n' ∉ cell.toList
  trimmed : trimChars cell.toList = cell.toList

/-- The cells on a line: what stands between its bars, without blanks at the ends. -/
def cellsOf (line : String) : Row :=
  ((line.toList.splitOn '│').tail.dropLast).map fun part => String.ofList (trimChars part)

/-- Parts that hold no bar are found again between the bars. -/
theorem splitOn_framed {bar : Char} {parts : List (List Char)} (nonempty : parts ≠ [])
    (noBar : ∀ part ∈ parts, bar ∉ part) :
    (framed bar bar bar parts).splitOn bar = [] :: (parts ++ [[]]) := by
  obtain ⟨head, tail, rfl⟩ := List.exists_cons_of_ne_nil nonempty
  have closed : [bar].intercalate (head :: tail) ++ [bar] =
      [bar].intercalate ((head :: tail) ++ [[]]) := by
    clear nonempty noBar
    induction tail generalizing head with
    | nil => simp [List.intercalate_cons_cons]
    | cons second more inductionHypothesis =>
        rw [List.intercalate_cons_cons, List.append_assoc, inductionHypothesis second]
        simp [List.intercalate_cons_cons]
  have opened : framed bar bar bar (head :: tail) =
      [bar].intercalate ([] :: ((head :: tail) ++ [[]])) := by
    rw [framed, closed, List.cons_append, List.intercalate_cons_cons]
    rfl
  rw [opened]
  apply List.splitOn_intercalate
  · intro part listed
    rcases List.mem_cons.mp listed with rfl | later
    · exact List.not_mem_nil
    · rcases List.mem_append.mp later with inside | last
      · exact noBar part inside
      · exact List.mem_singleton.mp last ▸ List.not_mem_nil
  · exact List.cons_ne_nil _ _

theorem trimChars_cellChars {cell : String} (isCell : IsCell cell) (width : Nat) :
    trimChars (cellChars width cell) = cell.toList := by
  rw [cellChars, trimChars_append_blanks, isCell.trimmed]
  · intro character listed
    rw [List.mem_singleton.mp listed]
    rfl
  · intro character listed
    have isSpace : character = ' ' := by
      rcases List.mem_append.mp listed with filling | last
      · exact List.eq_of_mem_replicate filling
      · exact List.mem_singleton.mp last
    rw [isSpace]
    rfl

theorem map_trimChars_cellChars {widths : List Nat} {row : Row} (fits : Fits widths row)
    (cells : ∀ cell ∈ row, IsCell cell) :
    (List.zipWith cellChars widths row).map (fun part => String.ofList (trimChars part)) = row := by
  induction fits with
  | nil => rfl
  | cons fit rest inductionHypothesis =>
      rw [List.zipWith_cons_cons, List.map_cons,
        trimChars_cellChars (cells _ List.mem_cons_self), String.ofList_toList,
        inductionHypothesis fun cell later => cells cell (List.mem_cons_of_mem _ later)]

/-- What stands on a line of cells besides its frame. -/
theorem mem_cellChars {widths : List Nat} {row : Row} {part : List Char} {character : Char}
    (isPart : part ∈ List.zipWith cellChars widths row) (inside : character ∈ part) :
    character = ' ' ∨ ∃ cell ∈ row, character ∈ cell.toList := by
  obtain ⟨place, bound, rfl⟩ := List.getElem_of_mem isPart
  rw [List.getElem_zipWith, cellChars] at inside
  simp only [List.mem_append, List.mem_singleton, List.mem_replicate] at inside
  rcases inside with space | inCell | ⟨_, space⟩ | space
  · exact Or.inl space
  · exact Or.inr ⟨_, List.getElem_mem _, inCell⟩
  · exact Or.inl space
  · exact Or.inl space

/-- A row is read from its line, whatever the widths of the columns. -/
theorem cellsOf_rowLine {widths : List Nat} {row : Row} (fits : Fits widths row)
    (nonempty : row ≠ []) (cells : ∀ cell ∈ row, IsCell cell) :
    cellsOf (rowLine widths row) = row := by
  have someParts := fits.zipWith_ne_nil nonempty
  have noBar : ∀ part ∈ List.zipWith cellChars widths row, '│' ∉ part := by
    intro part isPart inside
    rcases mem_cellChars isPart inside with space | ⟨cell, isCell, inCell⟩
    · exact absurd space (by decide)
    · exact (cells cell isCell).noBar inCell
  rw [cellsOf, toList_rowLine someParts, splitOn_framed someParts noBar, List.tail_cons,
    List.dropLast_concat]
  exact map_trimChars_cellChars fits cells

/-! ## Rows in a text -/

def isRowLine (line : String) : Bool := line.toList.head? = some '│'

/-- The rows of cells in a text, which are the lines that begin with a bar. -/
def rowsOf (text : String) : List Row := ((Text.lines text).filter isRowLine).map cellsOf

/-- A line with a given first character that can be told from the lines around it. -/
structure IsLine (first : Char) (line : String) : Prop where
  starts : line.toList.head? = some first
  noFeed : '\n' ∉ line.toList
  noReturn : line.toList.getLast? ≠ some '\r'

theorem IsLine.isRowLine_eq {first : Char} {line : String} (isLine : IsLine first line) :
    isRowLine line = decide (first = '│') := by
  simp [isRowLine, isLine.starts]

theorem isLine_of_framed {line : String} {left middle right : Char} {parts : List (List Char)}
    (shape : line.toList = framed left middle right parts)
    (frame : '\n' ∉ [left, middle, right] ∧ right ≠ '\r') (noFeed : ∀ part ∈ parts, '\n' ∉ part) :
    IsLine left line where
  starts := by
    rw [shape]
    rfl
  noFeed := by
    rw [shape, framed]
    intro listed
    simp only [List.mem_cons, List.mem_append, List.not_mem_nil, or_false, not_or] at listed frame
    rcases listed with isLeft | inside | isRight
    · exact frame.1.1 isLeft
    · rcases mem_intercalate inside with between | ⟨part, isPart, inPart⟩
      · exact frame.1.2.1 (List.mem_singleton.mp between)
      · exact noFeed part isPart inPart
    · exact frame.1.2.2 isRight
  noReturn := by
    rw [shape, framed, ← List.cons_append, List.getLast?_concat]
    exact fun same => frame.2 (Option.some.inj same)

theorem isLine_rule {left middle right : String} {first between last : Char}
    (isFirst : left.toList = [first]) (isBetween : middle.toList = [between])
    (isLast : right.toList = [last]) (frame : '\n' ∉ [first, between, last] ∧ last ≠ '\r')
    (widths : List Nat) : IsLine first (rule left middle right widths) := by
  refine isLine_of_framed (toList_rule isFirst isBetween isLast widths) frame ?_
  intro part listed inside
  obtain ⟨width, _, rfl⟩ := List.mem_map.mp listed
  exact absurd (List.eq_of_mem_replicate inside) (by decide)

/-- A rule begins with a character that no line of cells begins with. -/
theorem isLine_of_mem_rules {widths : List Nat} {line : String} (listed : line ∈ rules widths) :
    ∃ first, first ≠ '│' ∧ IsLine first line := by
  simp only [rules, List.mem_cons, List.not_mem_nil, or_false] at listed
  rcases listed with rfl | rfl | rfl
  · exact ⟨'╭', by decide, isLine_rule rfl rfl rfl (by decide) widths⟩
  · exact ⟨'├', by decide, isLine_rule rfl rfl rfl (by decide) widths⟩
  · exact ⟨'╰', by decide, isLine_rule rfl rfl rfl (by decide) widths⟩

theorem isLine_rowLine {widths : List Nat} {row : Row} (fits : Fits widths row)
    (nonempty : row ≠ []) (cells : ∀ cell ∈ row, IsCell cell) :
    IsLine '│' (rowLine widths row) := by
  refine isLine_of_framed (toList_rowLine (fits.zipWith_ne_nil nonempty)) (by decide) ?_
  intro part isPart inside
  rcases mem_cellChars isPart inside with space | ⟨cell, isCell, inCell⟩
  · exact absurd space (by decide)
  · exact (cells cell isCell).noFeed inCell

/-- A rectangular grid with a cell in each place. -/
structure IsGrid (header : Row) (rows : List Row) : Prop extends IsRectangular header rows where
  cells : ∀ row ∈ header :: rows, ∀ cell ∈ row, IsCell cell

namespace IsGrid

variable {header : Row} {rows : List Row} (isGrid : IsGrid header rows)
include isGrid

theorem isLine_row {row : Row} (listed : row ∈ header :: rows) :
    IsLine '│' (rowLine (columnWidths (header :: rows)) row) :=
  isLine_rowLine (isGrid.fits listed) (isGrid.row_ne_nil listed) (isGrid.cells row listed)

theorem exists_isLine {line : String} (listed : line ∈ lines header rows) :
    ∃ first, IsLine first line := by
  rcases mem_lines listed with isRule | ⟨row, isRow, rfl⟩
  · obtain ⟨first, _, isLine⟩ := isLine_of_mem_rules isRule
    exact ⟨first, isLine⟩
  · exact ⟨'│', isGrid.isLine_row isRow⟩

/-- The lines of the text are the lines that were put into it. -/
theorem lines_render : Text.lines (render header rows) = lines header rows := by
  apply lines_intercalate (List.cons_ne_nil _ _)
  · intro line listed
    obtain ⟨first, isLine⟩ := isGrid.exists_isLine listed
    exact isLine.noFeed
  · intro line listed none
    obtain ⟨first, isLine⟩ := isGrid.exists_isLine listed
    have starts := isLine.starts
    rw [none] at starts
    cases starts
  · intro line listed
    obtain ⟨first, isLine⟩ := isGrid.exists_isLine listed
    exact isLine.noReturn

/-- The lines that begin with a bar are those of the rows. -/
theorem filter_lines : (lines header rows).filter isRowLine =
    (header :: rows).map (rowLine (columnWidths (header :: rows))) := by
  let widths := columnWidths (header :: rows)
  have dropped : ∀ line ∈ rules widths, ¬ isRowLine line = true := by
    intro line isRule
    obtain ⟨first, notBar, isLine⟩ := isLine_of_mem_rules isRule
    simpa [isLine.isRowLine_eq] using notBar
  have kept : ∀ row ∈ header :: rows, isRowLine (rowLine widths row) = true :=
    fun row listed => (isGrid.isLine_row listed).isRowLine_eq
  have keptRows : (rows.map (rowLine widths)).filter isRowLine = rows.map (rowLine widths) := by
    refine List.filter_eq_self.mpr fun line listed => ?_
    obtain ⟨row, isRow, rfl⟩ := List.mem_map.mp listed
    exact kept row (List.mem_cons_of_mem _ isRow)
  rw [lines, List.filter_cons_of_neg (dropped _ (by simp [rules, widths])),
    List.filter_cons_of_pos (kept header List.mem_cons_self),
    List.filter_cons_of_neg (dropped _ (by simp [rules, widths])), List.filter_append, keptRows,
    List.filter_cons_of_neg (dropped _ (by simp [rules, widths])), List.filter_nil, List.append_nil,
    List.map_cons]

/-- The rows are read back from the text. -/
theorem rowsOf_render : rowsOf (render header rows) = header :: rows := by
  have read : ∀ row ∈ header :: rows,
      (cellsOf ∘ rowLine (columnWidths (header :: rows))) row = id row := fun row listed =>
    cellsOf_rowLine (isGrid.fits listed) (isGrid.row_ne_nil listed) (isGrid.cells row listed)
  rw [rowsOf, isGrid.lines_render, isGrid.filter_lines, List.map_map, List.map_congr_left read,
    List.map_id]

end IsGrid

end Grid

end Acceptors.Text
