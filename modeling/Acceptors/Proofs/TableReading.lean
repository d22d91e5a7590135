import Acceptors.TransitionTable
import Acceptors.Proofs.GridReading
import Acceptors.Proofs.Targets

/-!
Contract: transition tables read back.

Owns: the numerals in a cell of targets, the marks on a label of a state, the law
that the cells of a table can be read back from it, and what follows: different
automata have different tables, and the lines of a table are equally long.
Does not own: the frame of a table and the reading of its rows.

A cell of targets is read by dropping everything but digits and blanks: a hyphen
leaves nothing, and the members of a set are left with one blank between them.
-/

namespace Acceptors

namespace Text

/-! ## Numerals inside a cell -/

/-- Whether a character belongs to a numeral or stands between two of them. -/
def isNumeric (character : Char) : Bool := character.isDigit || character = ' '

/-- The numerals of a text in which blanks divide them. -/
def numerals (characters : List Char) : List (List Char) :=
  tokenChars (characters.filter isNumeric)

theorem filter_intercalate {Element : Type} (keep : Element → Bool) (separator : List Element)
    (parts : List (List Element)) :
    (separator.intercalate parts).filter keep =
      (separator.filter keep).intercalate (parts.map (List.filter keep)) := by
  induction parts with
  | nil => rfl
  | cons head tail inductionHypothesis =>
      cases tail with
      | nil => simp
      | cons second more =>
          rw [List.intercalate_cons_cons, List.filter_append, List.filter_append,
            inductionHypothesis]
          simp only [List.map_cons, List.intercalate_cons_cons]

theorem filter_isNumeric_renderChars (number : Nat) :
    (Numeral.renderChars number).filter isNumeric = Numeral.renderChars number := by
  refine List.filter_eq_self.mpr fun digit listed => ?_
  rw [isNumeric, Numeral.isDigit_of_mem_renderChars listed, Bool.true_or]

theorem numerals_renderChars (number : Nat) :
    numerals (Numeral.renderChars number) = [Numeral.renderChars number] := by
  have isToken := Numeral.isToken_render number
  rw [Numeral.toList_render] at isToken
  rw [numerals, filter_isNumeric_renderChars, tokenChars_of_no_blank isToken.1 isToken.2]

/-- Different numbers have different digits. -/
theorem Numeral.renderChars_injective {left right : Nat}
    (same : Numeral.renderChars left = Numeral.renderChars right) : left = right := by
  rw [← Numeral.toList_render, ← Numeral.toList_render] at same
  exact Numeral.render_injective (String.toList_inj.mp same)

end Text

open Text (isNumeric numerals numerals_renderChars tokenChars_intercalate)
open Text.Grid
open Text.Numeral (renderChars)

/-! ## Texts that can stand in a cell -/

namespace Text.Grid

/-- Whether a character is neither blank nor a bar. -/
def isVisible (character : Char) : Bool := !isBlank character && character != '│'

theorem isVisible_of_isDigit {digit : Char} (isDigit : digit.isDigit = true) :
    isVisible digit = true := by
  have notBar : digit ≠ '│' := fun same => absurd (same ▸ isDigit) (by decide)
  simp [isVisible, isBlank_of_isDigit isDigit, notBar]

theorem isBlank_of_isVisible {character : Char} (visible : isVisible character = true) :
    isBlank character = false := by
  simpa using (Bool.and_eq_true_iff.mp visible).1

theorem isCell_of_isVisible {cell : String}
    (visible : ∀ character ∈ cell.toList, isVisible character = true) : IsCell cell where
  noBar listed := absurd (visible _ listed) (by decide)
  noFeed listed := absurd (visible _ listed) (by decide)
  trimmed := trimChars_eq_self
    (fun character first => isBlank_of_isVisible (visible character (List.mem_of_mem_head? first)))
    (fun character last => isBlank_of_isVisible (visible character (List.mem_of_mem_getLast? last)))

theorem isCell_numeral (number : Nat) : IsCell (toString number) := by
  apply isCell_of_isVisible
  intro digit listed
  rw [Nat.toString_eq_repr, Nat.toList_repr] at listed
  exact isVisible_of_isDigit (Numeral.isDigit_of_mem_renderChars listed)

end Text.Grid

/-! ## Texts of sets -/

namespace StateSet

/-- The characters of a set as it is printed. -/
theorem toList_render (set : StateSet) :
    set.render.toList = if set.isEmpty then ['∅'] else
      ['\x7b'] ++ [',', ' '].intercalate (set.toList.map renderChars) ++ ['\x7d'] := by
  have opening : "\x7b".toList = ['\x7b'] := rfl
  have closing : "\x7d".toList = ['\x7d'] := rfl
  have separator : ", ".toList = [',', ' '] := rfl
  have members : (set.toList.map toString).map String.toList = set.toList.map renderChars := by
    rw [List.map_map]
    exact List.map_congr_left fun member _ => Text.Numeral.toList_render member
  unfold render
  split
  · rfl
  · rw [Text.listing, String.toList_append, String.toList_append, String.toList_intercalate,
      opening, closing, separator, members]

/-- The numerals in the text of a set are those of its members. -/
theorem numerals_render (set : StateSet) :
    numerals set.render.toList = set.toList.map renderChars := by
  rw [toList_render]
  split
  · rename_i none
    rw [List.isEmpty_iff.mp none]
    rfl
  · have members : (set.toList.map renderChars).map (List.filter isNumeric) =
        set.toList.map renderChars := by
      rw [List.map_map]
      exact List.map_congr_left fun member _ => Text.filter_isNumeric_renderChars member
    have opening : ['\x7b'].filter isNumeric = [] := rfl
    have closing : ['\x7d'].filter isNumeric = [] := rfl
    have separator : [',', ' '].filter isNumeric = [' '] := rfl
    rw [numerals, List.filter_append, List.filter_append, opening, closing,
      Text.filter_intercalate, separator, members, List.nil_append, List.append_nil]
    apply tokenChars_intercalate
    intro part listed
    obtain ⟨member, _, rfl⟩ := List.mem_map.mp listed
    exact Text.Numeral.toList_render member ▸ Text.Numeral.isToken_render member

theorem mem_render {set : StateSet} {character : Char}
    (listed : character ∈ set.render.toList) :
    character ∈ ['∅', '\x7b', ',', ' ', '\x7d'] ∨ character.isDigit = true := by
  rw [toList_render] at listed
  split at listed
  · exact Or.inl (List.mem_cons.mpr (Or.inl (List.mem_singleton.mp listed)))
  · rcases List.mem_append.mp listed with before | closing
    · rcases List.mem_append.mp before with opening | inside
      · exact Or.inl (by simp [List.mem_singleton.mp opening])
      · rcases Text.mem_intercalate inside with separator | ⟨part, isPart, inPart⟩
        · have among : [',', ' '] ⊆ ['∅', '\x7b', ',', ' ', '\x7d'] := by decide
          exact Or.inl (among separator)
        · obtain ⟨member, _, rfl⟩ := List.mem_map.mp isPart
          exact Or.inr (Text.Numeral.isDigit_of_mem_renderChars inPart)
    · exact Or.inl (by simp [List.mem_singleton.mp closing])

theorem isCell_render (set : StateSet) : IsCell set.render where
  noBar listed := (mem_render listed).elim (by decide) (by decide)
  noFeed listed := (mem_render listed).elim (by decide) (by decide)
  trimmed := by
    rw [toList_render]
    split
    · rfl
    · apply Text.trimChars_eq_self
      · intro character first
        cases first
        rfl
      · intro character last
        rw [List.getLast?_concat] at last
        cases last
        rfl

end StateSet

namespace Automaton

/-- The numerals in a cell are those of the targets. -/
theorem numerals_targetCell (automaton : Automaton) (source symbol : Nat) :
    numerals (automaton.targetCell source symbol).toList =
      (automaton.targets source symbol).toList.map renderChars := by
  have targets : automaton.targets source symbol =
      (automaton.successors? source symbol).getD ∅ := rfl
  unfold targetCell
  split
  · rename_i none
    rw [targets, none]
    rfl
  · rename_i listed found
    rw [targets, found, Option.getD_some]
    split
    · rename_i target single
      rw [StateSet.single?_eq_some_iff.mp single]
      exact (congrArg numerals (Text.Numeral.toList_render target)).trans
        (numerals_renderChars target)
    · exact listed.numerals_render

/-- A label holds the digits of its state and, if they apply, the two marks. -/
theorem mem_stateLabel {automaton : Automaton} {state : Nat} {character : Char} :
    character ∈ (automaton.stateLabel state).toList ↔
      (character = '→' ∧ state ∈ automaton.initial) ∨ character ∈ renderChars state ∨
        (character = '*' ∧ state ∈ automaton.accepting) := by
  have digits : (toString state).toList = renderChars state := Text.Numeral.toList_render state
  have arrow : character ∈ (if automaton.initial.contains state then "→" else "").toList ↔
      character = '→' ∧ state ∈ automaton.initial := by
    by_cases isInitial : state ∈ automaton.initial
    · simp [StateSet.contains_iff.mpr isInitial, isInitial]
    · simp [isInitial]
  have star : character ∈ (if automaton.isAccepting state then "*" else "").toList ↔
      character = '*' ∧ state ∈ automaton.accepting := by
    by_cases isAccepting : state ∈ automaton.accepting
    · simp [Automaton.isAccepting, StateSet.contains_iff.mpr isAccepting, isAccepting]
    · simp [Automaton.isAccepting, isAccepting]
  rw [stateLabel, String.toList_append, String.toList_append, List.mem_append, List.mem_append,
    digits, arrow, star, or_assoc]

theorem arrow_mem_stateLabel_iff {automaton : Automaton} {state : Nat} :
    '→' ∈ (automaton.stateLabel state).toList ↔ state ∈ automaton.initial := by
  rw [mem_stateLabel]
  constructor
  · rintro (⟨_, found⟩ | digit | ⟨other, _⟩)
    · exact found
    · exact absurd (Text.Numeral.isDigit_of_mem_renderChars digit) (by decide)
    · exact absurd other (by decide)
  · exact fun isInitial => Or.inl ⟨rfl, isInitial⟩

theorem star_mem_stateLabel_iff {automaton : Automaton} {state : Nat} :
    '*' ∈ (automaton.stateLabel state).toList ↔ state ∈ automaton.accepting := by
  rw [mem_stateLabel]
  constructor
  · rintro (⟨other, _⟩ | digit | ⟨_, found⟩)
    · exact absurd other (by decide)
    · exact absurd (Text.Numeral.isDigit_of_mem_renderChars digit) (by decide)
    · exact found
  · exact fun isAccepting => Or.inr (Or.inr ⟨rfl, isAccepting⟩)

theorem isCell_stateLabel (automaton : Automaton) (state : Nat) :
    IsCell (automaton.stateLabel state) := by
  apply isCell_of_isVisible
  intro character listed
  rcases mem_stateLabel.mp listed with ⟨rfl, _⟩ | digit | ⟨rfl, _⟩
  · rfl
  · exact isVisible_of_isDigit (Text.Numeral.isDigit_of_mem_renderChars digit)
  · rfl

theorem isCell_targetCell (automaton : Automaton) (source symbol : Nat) :
    IsCell (automaton.targetCell source symbol) := by
  unfold targetCell
  split
  · exact isCell_of_isVisible (List.all_eq_true.mp rfl)
  · split
    · exact isCell_numeral _
    · exact StateSet.isCell_render _

/-- The rows of a table form a grid. -/
theorem isGrid_table (automaton : Automaton) :
    IsGrid automaton.tableHeader (automaton.states.map automaton.tableRow) where
  someColumn := List.cons_ne_nil _ _
  sameLength := by
    intro row listed
    obtain ⟨state, _, rfl⟩ := List.mem_map.mp listed
    simp [tableRow, tableHeader]
  cells := by
    intro row listed cell inside
    rcases List.mem_cons.mp listed with rfl | later
    · rcases List.mem_cons.mp inside with rfl | isSymbol
      · exact isCell_of_isVisible (List.all_eq_true.mp rfl)
      · obtain ⟨symbol, _, rfl⟩ := List.mem_map.mp isSymbol
        exact isCell_numeral symbol
    · obtain ⟨state, _, rfl⟩ := List.mem_map.mp later
      rcases List.mem_cons.mp inside with rfl | isTarget
      · exact isCell_stateLabel automaton state
      · obtain ⟨symbol, _, rfl⟩ := List.mem_map.mp isTarget
        exact isCell_targetCell automaton state symbol

/-! ## Tables determine automata -/

section Equal

variable {left right : Automaton} (same : left.table = right.table)
include same

theorem rows_eq_of_table_eq :
    left.tableHeader :: left.states.map left.tableRow =
      right.tableHeader :: right.states.map right.tableRow := by
  rw [← left.isGrid_table.rowsOf_render, ← right.isGrid_table.rowsOf_render]
  exact congrArg rowsOf same

theorem alphabetSize_eq_of_table_eq : left.alphabetSize = right.alphabetSize := by
  have headers := congrArg List.length (List.cons.inj (rows_eq_of_table_eq same)).1
  simpa [tableHeader, symbols] using headers

theorem size_eq_of_table_eq : left.size = right.size := by
  have rows := congrArg List.length (List.cons.inj (rows_eq_of_table_eq same)).2
  simpa [states] using rows

theorem tableRow_eq_of_table_eq {state : Nat} (inside : state < left.size) :
    left.tableRow state = right.tableRow state := by
  have rows := (List.cons.inj (rows_eq_of_table_eq same)).2
  rw [states, states, ← size_eq_of_table_eq same] at rows
  exact List.map_inj_left.mp rows state (List.mem_range.mpr inside)

theorem stateLabel_eq_of_table_eq {state : Nat} (inside : state < left.size) :
    left.stateLabel state = right.stateLabel state :=
  (List.cons.inj (tableRow_eq_of_table_eq same inside)).1

theorem targetCell_eq_of_table_eq {source symbol : Nat} (sourceInside : source < left.size)
    (symbolInside : symbol < left.alphabetSize) :
    left.targetCell source symbol = right.targetCell source symbol := by
  have cells := (List.cons.inj (tableRow_eq_of_table_eq same sourceInside)).2
  rw [symbols, symbols, ← alphabetSize_eq_of_table_eq same] at cells
  exact List.map_inj_left.mp cells symbol (List.mem_range.mpr symbolInside)

theorem mem_initial_of_table_eq {state : Nat} (isInitial : state ∈ left.initial) :
    state ∈ right.initial := by
  have labels := stateLabel_eq_of_table_eq same (left.valid.initial_lt state isInitial)
  rw [← arrow_mem_stateLabel_iff, ← labels, arrow_mem_stateLabel_iff]
  exact isInitial

theorem mem_accepting_of_table_eq {state : Nat} (isAccepting : state ∈ left.accepting) :
    state ∈ right.accepting := by
  have labels := stateLabel_eq_of_table_eq same (left.valid.accepting_lt state isAccepting)
  rw [← star_mem_stateLabel_iff, ← labels, star_mem_stateLabel_iff]
  exact isAccepting

theorem mem_targets_of_table_eq {source symbol target : Nat}
    (moves : target ∈ left.targets source symbol) : target ∈ right.targets source symbol := by
  have cells := targetCell_eq_of_table_eq same (source_lt_of_mem_targets moves)
    (symbol_lt_of_mem_targets moves)
  have targets : (left.targets source symbol).toList.map renderChars =
      (right.targets source symbol).toList.map renderChars := by
    rw [← numerals_targetCell, ← numerals_targetCell, cells]
  have lists := (List.map_inj_right fun _ _ => Text.Numeral.renderChars_injective).mp targets
  exact StateSet.toList_injective lists ▸ moves

end Equal

theorem eq_of_table_eq {left right : Automaton} (same : left.table = right.table) :
    left = right := by
  refine ext_targets (size_eq_of_table_eq same) (alphabetSize_eq_of_table_eq same) ?_ ?_ ?_
  · ext state
    exact ⟨mem_initial_of_table_eq same, mem_initial_of_table_eq same.symm⟩
  · ext state
    exact ⟨mem_accepting_of_table_eq same, mem_accepting_of_table_eq same.symm⟩
  · intro source symbol
    ext target
    exact ⟨mem_targets_of_table_eq same, mem_targets_of_table_eq same.symm⟩

/-- Automata have the same table only if they are the same, and the lines of a
table are equally long. -/
theorem table_determines (left right : Automaton) :
    (left.table = right.table ↔ left = right) ∧
      ∀ first ∈ Text.lines left.table, ∀ second ∈ Text.lines left.table,
        first.length = second.length := by
  constructor
  · exact ⟨eq_of_table_eq, congrArg table⟩
  · intro first isFirst second isSecond
    rw [table, left.isGrid_table.lines_render] at isFirst isSecond
    exact (left.isGrid_table.length_eq isFirst).trans (left.isGrid_table.length_eq isSecond).symm

end Automaton

end Acceptors
