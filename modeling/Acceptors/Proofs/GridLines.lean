import Mathlib.Data.List.Forall2
import Acceptors.Text.Grid

/-!
Contract: the lines of a grid.

Owns: the common shape of rules and lines of cells, the widths in which every row
fits, and the law that a rectangular grid has lines of one length.
Does not own: which rows a grid is made of, and the reading of its text.
-/

namespace Acceptors.Text.Grid

/-! ## The shape of a line -/

/-- Parts with a character between any two of them, one in front and one behind. -/
def framed (left middle right : Char) (parts : List (List Char)) : List Char :=
  left :: ([middle].intercalate parts ++ [right])

/-- The number of characters that a frame and parts of the given lengths make. -/
def framedLength (lengths : List Nat) : Nat :=
  lengths.foldr (fun length rest => length + 1 + rest) 1

theorem length_framed {left middle right : Char} {parts : List (List Char)}
    (nonempty : parts ≠ []) :
    (framed left middle right parts).length = framedLength (parts.map List.length) := by
  obtain ⟨head, tail, rfl⟩ := List.exists_cons_of_ne_nil nonempty
  have joined : ([middle].intercalate (head :: tail)).length + 2 =
      framedLength ((head :: tail).map List.length) := by
    clear nonempty
    induction tail generalizing head with
    | nil => rw [List.intercalate_singleton]; rfl
    | cons second more inductionHypothesis =>
        rw [List.map_cons, framedLength, List.foldr_cons, ← framedLength,
          ← inductionHypothesis second, List.intercalate_cons_cons, List.length_append,
          List.length_append, List.length_singleton]
        omega
  rw [framed, List.length_cons, List.length_append, List.length_singleton, joined]

/-- A cell as it stands between two bars. -/
def cellChars (width : Nat) (cell : String) : List Char :=
  [' '] ++ (cell.toList ++ (List.replicate (width - cell.length) ' ' ++ [' ']))

theorem toList_rule {left middle right : String} {first between last : Char}
    (isFirst : left.toList = [first]) (isBetween : middle.toList = [between])
    (isLast : right.toList = [last]) (widths : List Nat) :
    (rule left middle right widths).toList =
      framed first between last (widths.map fun width => List.replicate (width + 2) '─') := by
  simp [rule, framed, String.toList_intercalate, Function.comp_def, isFirst, isBetween, isLast]

theorem toList_rowLine {widths : List Nat} {row : Row}
    (nonempty : List.zipWith cellChars widths row ≠ []) :
    (rowLine widths row).toList =
      framed '│' '│' '│' (List.zipWith cellChars widths row) := by
  -- A blank beside a bar counts as part of the cell, so that bars alone divide the line.
  have spaced (head : List Char) (tail : List (List Char)) :
      [' '] ++ [' ', '│', ' '].intercalate (head :: tail) ++ [' '] =
        ['│'].intercalate ((head :: tail).map fun part => [' '] ++ (part ++ [' '])) := by
    induction tail generalizing head with
    | nil => simp
    | cons second more inductionHypothesis =>
        have rest := inductionHypothesis second
        rw [List.map_cons] at rest
        rw [List.intercalate_cons_cons, List.map_cons, List.map_cons, List.intercalate_cons_cons,
          ← rest]
        simp
  have cells : ((List.zipWith pad widths row).map String.toList).map
      (fun part => [' '] ++ (part ++ [' '])) = List.zipWith cellChars widths row := by
    rw [List.map_zipWith, List.map_zipWith]
    congr
    funext width cell
    simp [pad, cellChars]
  rw [← cells] at nonempty ⊢
  obtain ⟨head, tail, same⟩ := List.exists_cons_of_ne_nil (mt List.map_eq_nil_iff.mpr nonempty)
  have separator : " │ ".toList = [' ', '│', ' '] := rfl
  have opening : "│ ".toList = '│' :: [' '] := rfl
  have closing : " │".toList = [' '] ++ ['│'] := rfl
  rw [rowLine, String.toList_append, String.toList_append, String.toList_intercalate, separator,
    opening, closing, same, framed, ← spaced]
  simp

/-! ## Widths -/

/-- There is one width for each cell of a row, and the cell fits in it. -/
def Fits (widths : List Nat) (row : Row) : Prop :=
  List.Forall₂ (fun width cell => cell.length ≤ width) widths row

theorem fits_self (row : Row) : Fits (row.map String.length) row :=
  List.forall₂_map_left_iff.mpr (List.forall₂_same.mpr fun _ _ => Nat.le_refl _)

theorem Fits.widen {widths others : List Nat} {row : Row} (fits : Fits widths row)
    (same : others.length = row.length) : Fits (widen widths others) row := by
  induction fits generalizing others with
  | nil =>
      rw [List.length_eq_zero_iff.mp same]
      exact List.Forall₂.nil
  | cons fit rest inductionHypothesis =>
      cases others with
      | nil => cases same
      | cons other more =>
          exact List.Forall₂.cons (Nat.le_trans fit (Nat.le_max_left _ _))
            (inductionHypothesis (Nat.succ.inj same))

theorem fits_widen {widths : List Nat} {row : Row} (same : widths.length = row.length) :
    Fits (Grid.widen widths (row.map String.length)) row := by
  induction row generalizing widths with
  | nil => exact List.length_eq_zero_iff.mp same ▸ List.Forall₂.nil
  | cons cell rest inductionHypothesis =>
      cases widths with
      | nil => cases same
      | cons width more =>
          exact List.Forall₂.cons (Nat.le_max_right _ _) (inductionHypothesis (Nat.succ.inj same))

/-- Widening by row after row loses no row that fits and makes each of them fit. -/
theorem fits_foldl_widen {start : List Nat} {rows : List Row}
    (rectangular : ∀ other ∈ rows, other.length = start.length) {row : Row}
    (known : Fits start row ∨ row ∈ rows) :
    Fits (rows.foldl (fun widths other => Grid.widen widths (other.map String.length)) start)
      row := by
  induction rows generalizing start with
  | nil => exact known.resolve_right List.not_mem_nil
  | cons head tail inductionHypothesis =>
      have headLength := rectangular head List.mem_cons_self
      have headFits := fits_widen headLength.symm
      apply inductionHypothesis
      · intro other later
        rw [rectangular other (List.mem_cons_of_mem _ later), headFits.length_eq, headLength]
      · rcases known with fits | listed
        · refine Or.inl (fits.widen ?_)
          rw [List.length_map, headLength, fits.length_eq]
        · rcases List.mem_cons.mp listed with rfl | later
          · exact Or.inl headFits
          · exact Or.inr later

/-- In a grid whose rows are equally long, every row fits in the columns. -/
theorem fits_columnWidths {header : Row} {rows : List Row}
    (rectangular : ∀ row ∈ rows, row.length = header.length) {row : Row}
    (listed : row ∈ header :: rows) : Fits (columnWidths (header :: rows)) row := by
  have known : Fits (header.map String.length) row ∨ row ∈ rows := by
    rcases List.mem_cons.mp listed with rfl | later
    · exact Or.inl (fits_self row)
    · exact Or.inr later
  have fits := fits_foldl_widen (by simpa using rectangular) known
  exact fits

/-- The number of characters on a line with columns of the given widths. -/
def lineLength (widths : List Nat) : Nat := framedLength (widths.map (· + 2))

theorem length_rule {left middle right : String} {first between last : Char}
    (isFirst : left.toList = [first]) (isBetween : middle.toList = [between])
    (isLast : right.toList = [last]) {widths : List Nat} (nonempty : widths ≠ []) :
    (rule left middle right widths).length = lineLength widths := by
  have lengths : (widths.map fun width => List.replicate (width + 2) '─').map List.length =
      widths.map (· + 2) := by
    rw [List.map_map]
    exact List.map_congr_left fun width _ => List.length_replicate
  rw [← String.length_toList, toList_rule isFirst isBetween isLast, length_framed (by simpa),
    lengths, lineLength]

theorem Fits.zipWith_ne_nil {widths : List Nat} {row : Row} (fits : Fits widths row)
    (nonempty : row ≠ []) : List.zipWith cellChars widths row ≠ [] := by
  cases fits with
  | nil => exact absurd rfl nonempty
  | cons fit rest => exact List.cons_ne_nil _ _

theorem Fits.length_rowLine {widths : List Nat} {row : Row} (fits : Fits widths row)
    (nonempty : row ≠ []) : (rowLine widths row).length = lineLength widths := by
  have lengths : (List.zipWith cellChars widths row).map List.length = widths.map (· + 2) := by
    clear nonempty
    induction fits with
    | nil => rfl
    | cons fit rest inductionHypothesis =>
        rw [List.zipWith_cons_cons, List.map_cons, List.map_cons, inductionHypothesis]
        congr 1
        simp only [cellChars, List.length_append, List.length_singleton, List.length_replicate,
          String.length_toList]
        omega
  rw [← String.length_toList, toList_rowLine (fits.zipWith_ne_nil nonempty),
    length_framed (fits.zipWith_ne_nil nonempty), lengths, lineLength]

/-! ## Rectangular grids -/

/-- Rows of one length, with at least one cell. -/
structure IsRectangular (header : Row) (rows : List Row) : Prop where
  someColumn : header ≠ []
  sameLength : ∀ row ∈ rows, row.length = header.length

/-- The three rules of a grid. -/
def rules (widths : List Nat) : List String :=
  [rule "╭" "┬" "╮" widths, rule "├" "┼" "┤" widths, rule "╰" "┴" "╯" widths]

/-- A line of a grid is one of the rules or holds the cells of a row. -/
theorem mem_lines {header : Row} {rows : List Row} {line : String}
    (listed : line ∈ lines header rows) :
    line ∈ rules (columnWidths (header :: rows)) ∨
      ∃ row ∈ header :: rows, rowLine (columnWidths (header :: rows)) row = line := by
  simp only [lines, List.mem_cons, List.mem_append, List.mem_map, List.not_mem_nil,
    or_false] at listed
  rcases listed with rfl | rfl | rfl | ⟨row, isRow, rfl⟩ | rfl
  · exact Or.inl (by simp [rules])
  · exact Or.inr ⟨header, List.mem_cons_self, rfl⟩
  · exact Or.inl (by simp [rules])
  · exact Or.inr ⟨row, List.mem_cons_of_mem _ isRow, rfl⟩
  · exact Or.inl (by simp [rules])

namespace IsRectangular

variable {header : Row} {rows : List Row} (isRectangular : IsRectangular header rows)
include isRectangular

theorem row_ne_nil {row : Row} (listed : row ∈ header :: rows) : row ≠ [] := by
  rcases List.mem_cons.mp listed with rfl | later
  · exact isRectangular.someColumn
  · intro none
    have noColumn := isRectangular.sameLength row later
    rw [none] at noColumn
    exact isRectangular.someColumn (List.length_eq_zero_iff.mp noColumn.symm)

theorem fits {row : Row} (listed : row ∈ header :: rows) :
    Fits (columnWidths (header :: rows)) row :=
  fits_columnWidths isRectangular.sameLength listed

theorem columnWidths_ne_nil : columnWidths (header :: rows) ≠ [] := by
  intro none
  have noColumn := (isRectangular.fits List.mem_cons_self).length_eq
  rw [none] at noColumn
  exact isRectangular.someColumn (List.length_eq_zero_iff.mp noColumn.symm)

/-- All lines have the same number of characters. -/
theorem length_eq {line : String} (listed : line ∈ lines header rows) :
    line.length = lineLength (columnWidths (header :: rows)) := by
  rcases mem_lines listed with isRule | ⟨row, isRow, rfl⟩
  · have someWidth := isRectangular.columnWidths_ne_nil
    simp only [rules, List.mem_cons, List.not_mem_nil, or_false] at isRule
    rcases isRule with rfl | rfl | rfl
    · exact length_rule rfl rfl rfl someWidth
    · exact length_rule rfl rfl rfl someWidth
    · exact length_rule rfl rfl rfl someWidth
  · exact (isRectangular.fits isRow).length_rowLine (isRectangular.row_ne_nil isRow)

end IsRectangular

end Acceptors.Text.Grid
