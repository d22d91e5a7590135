import Acceptors.Proofs.LineByLine

/-!
Contract: which lines are malformed, and that one step refuses these and no others.

Owns: the line of an error, what has to stand on each line, what is established when a stage
is reached, and the step from one stage to the next.
Does not own: the grammar of a whole text, and the errors of the reader as a whole.

Whether a line is well-formed is said by the grammar and by the two counts declared in front
of it. A stage that is reached carries these counts, and one more line then either leads to
the next stage or is malformed and refused at its own number.
-/

namespace Acceptors

/-- The line that an error refuses. -/
def ReadError.line? : ReadError → Option Nat
  | .invalidNumber line _ | .expectedSingleNumber line _ | .missingTargets line
  | .outOfRange line _ => some line
  | .notUnicode | .missingLine _ | .invalid _ => none

namespace Grammar

open Encoding (Header)

/-! ## Malformed lines -/

/-- A line of the input with its number, counted from one. -/
def Stands (lines : List String) (line : Nat) (content : String) : Prop :=
  1 ≤ line ∧ lines[line - 1]? = some content

/-- A line holds one number and nothing else. -/
def Declares (lines : List String) (line value : Nat) : Prop :=
  ∃ content, Stands lines line content ∧ Holds content [value]

/-- A line of states, all of them in range. -/
def HoldsStates (size : Nat) (content : String) : Prop :=
  ∃ states, Holds content states ∧ ∀ state ∈ states, state < size

/-- What has to stand on a line: a number on the first two, states on the next two, and
transitions or nothing on all others. -/
def WellFormed (lines : List String) (line : Nat) (content : String) : Prop :=
  match line with
  | 1 | 2 => ∃ value, Holds content [value]
  | 3 | 4 => ∃ size, Declares lines 1 size ∧ HoldsStates size content
  | _ =>
      Blank content ∨ ∃ header : Header, Declares lines 1 header.size ∧
        Declares lines 2 header.alphabetSize ∧ HoldsTransitions header content

def Malformed (lines : List String) (line : Nat) : Prop :=
  ∃ content, Stands lines line content ∧ ¬WellFormed lines line content

def FirstMalformed (lines : List String) (line : Nat) : Prop :=
  Malformed lines line ∧ ∀ earlier < line, ¬Malformed lines earlier

section

variable {lines : List String} {line count value other : Nat} {content another : String}

theorem stands_succ_iff : Stands lines (count + 1) content ↔ lines[count]? = some content := by
  simp [Stands]

theorem Stands.unique (stands : Stands lines line content) (also : Stands lines line another) :
    content = another :=
  Option.some.inj (stands.2.symm.trans also.2)

theorem Declares.unique (declares : Declares lines line value)
    (also : Declares lines line other) : value = other := by
  obtain ⟨content, stands, holds⟩ := declares
  obtain ⟨_, alsoStands, alsoHolds⟩ := also
  cases stands.unique alsoStands
  exact List.singleton_inj.mp (holds.unique alsoHolds)

theorem wellFormed_iff_of_five_le (five_le : 5 ≤ line) :
    WellFormed lines line content ↔
      Blank content ∨ ∃ header : Header, Declares lines 1 header.size ∧
        Declares lines 2 header.alphabetSize ∧ HoldsTransitions header content := by
  obtain ⟨more, rfl⟩ := Nat.exists_eq_add_of_le' five_le
  rfl

theorem malformed_iff (stands : Stands lines line content) :
    Malformed lines line ↔ ¬WellFormed lines line content := by
  constructor
  · rintro ⟨_, alsoStands, faulty⟩
    cases stands.unique alsoStands
    exact faulty
  · intro faulty
    exact ⟨content, stands, faulty⟩

theorem not_malformed_of_length_lt (behind : lines.length < line) : ¬Malformed lines line := by
  rintro ⟨_, ⟨_, found⟩, _⟩
  have := (List.getElem?_eq_some_iff.mp found).1
  omega

theorem FirstMalformed.unique {first second : Nat} (isFirst : FirstMalformed lines first)
    (alsoFirst : FirstMalformed lines second) : first = second := by
  have notBefore : ¬first < second := fun before => alsoFirst.2 first before isFirst.1
  have notBehind : ¬second < first := fun behind => isFirst.2 second behind alsoFirst.1
  omega

end

end Grammar

namespace Encoding

open Grammar

/-! ## Errors of one line -/

/-- Every error of a computation refuses this line. -/
def RefusesOnly {Value : Type} (line : Nat) (result : Except ReadError Value) : Prop :=
  ∀ error, result = .error error → error.line? = some line

section

variable {First Second : Type} {line : Nat}

theorem refusesOnly_ok (value : First) : RefusesOnly line (.ok value) :=
  fun _ impossible => by cases impossible

theorem RefusesOnly.bind {first : Except ReadError First}
    {next : First → Except ReadError Second} (refuses : RefusesOnly line first)
    (nextRefuses : ∀ value, RefusesOnly line (next value)) :
    RefusesOnly line (first >>= next) := by
  cases first with
  | error error => exact fun other same => refuses other (by cases same; rfl)
  | ok value => exact nextRefuses value

theorem RefusesOnly.map {first : Except ReadError First} (refuses : RefusesOnly line first)
    (change : First → Second) : RefusesOnly line (first.map change) := by
  cases first with
  | error error => exact fun other same => refuses other (by cases same; rfl)
  | ok value => exact refusesOnly_ok _

theorem RefusesOnly.mapM {step : First → Except ReadError Second}
    (refuses : ∀ item, RefusesOnly line (step item)) (items : List First) :
    RefusesOnly line (items.mapM step) := by
  induction items with
  | nil => exact refusesOnly_ok []
  | cons head tail inductionHypothesis =>
      rw [List.mapM_cons]
      refine (refuses head).bind fun value => inductionHypothesis.bind fun values => ?_
      exact refusesOnly_ok (value :: values)

end

section

variable (line : Nat) (content : String)

theorem refusesOnly_numbers : RefusesOnly line (numbers line content) := by
  refine RefusesOnly.mapM (fun token error refused => ?_) (Text.tokens content)
  unfold numberOf at refused
  split at refused
  · cases refused
  · cases refused
    rfl

theorem refusesOnly_singleNumber : RefusesOnly line (singleNumber line content) := by
  refine (refusesOnly_numbers line content).bind fun values error refused => ?_
  split at refused
  · cases refused
  · cases refused
    rfl

theorem refusesOnly_refuse (violation : Option Violation) :
    RefusesOnly line (refuse line violation) := by
  intro error refused
  cases violation with
  | none => cases refused
  | some violation =>
      cases refused
      rfl

theorem refusesOnly_statesOnLine (size : Nat) :
    RefusesOnly line (statesOnLine size line content) :=
  (refusesOnly_numbers line content).bind fun states =>
    (refusesOnly_refuse line _).bind fun _ => refusesOnly_ok states

theorem refusesOnly_edgesOnLine (header : Header) :
    RefusesOnly line (edgesOnLine header line content) := by
  unfold edgesOnLine
  split
  · exact refusesOnly_ok []
  · refine (refusesOnly_numbers line content).bind fun values => ?_
    split
    · exact (refusesOnly_refuse line _).bind fun _ => (refusesOnly_refuse line _).bind fun _ =>
        (refusesOnly_refuse line _).bind fun _ => refusesOnly_ok _
    · intro error refused
      cases refused
      rfl

theorem refusesOnly_advance (stage : Stage) :
    RefusesOnly line (stage.advance (content, line)) := by
  unfold Stage.advance
  cases stage with
  | start => exact (refusesOnly_singleNumber line _).map _
  | sized size => exact (refusesOnly_singleNumber line _).map _
  | counted size alphabetSize => exact (refusesOnly_statesOnLine line _ size).map _
  | entered size alphabetSize initial => exact (refusesOnly_statesOnLine line _ size).map _
  | headed header edges => exact (refusesOnly_edgesOnLine line content header).map _

end

/-! ## Stages that are reached -/

/-- What some lines without a malformed one establish. -/
inductive Reached (lines : List String) : Nat → Stage → Prop where
  | start : Reached lines 0 .start
  | sized {size : Nat} (declaresSize : Declares lines 1 size) : Reached lines 1 (.sized size)
  | counted {size alphabetSize : Nat} (declaresSize : Declares lines 1 size)
      (declaresAlphabetSize : Declares lines 2 alphabetSize) :
      Reached lines 2 (.counted size alphabetSize)
  | entered {size alphabetSize : Nat} {initial : List Nat} (declaresSize : Declares lines 1 size)
      (declaresAlphabetSize : Declares lines 2 alphabetSize)
      (initial_lt : ∀ state ∈ initial, state < size) :
      Reached lines 3 (.entered size alphabetSize initial)
  | headed {count : Nat} {header : Header} {edges : List Edge} (four_le : 4 ≤ count)
      (declaresSize : Declares lines 1 header.size)
      (declaresAlphabetSize : Declares lines 2 header.alphabetSize)
      (initial_lt : ∀ state ∈ header.initial, state < header.size)
      (accepting_lt : ∀ state ∈ header.accepting, state < header.size)
      (edge_lt : ∀ edge ∈ edges, edge.source < header.size ∧
        edge.symbol < header.alphabetSize ∧ edge.target < header.size) :
      Reached lines count (.headed header edges)

section

variable {lines : List String} {count : Nat} {content : String} {stage next : Stage}

/-- A line that is read is well-formed, and the next stage is reached behind it. -/
theorem Reached.advance (reached : Reached lines count stage)
    (stands : Stands lines (count + 1) content)
    (read : stage.advance (content, count + 1) = .ok next) :
    WellFormed lines (count + 1) content ∧ Reached lines (count + 1) next := by
  unfold Stage.advance at read
  cases reached with
  | start =>
      obtain ⟨size, single, rfl⟩ := map_eq_ok_iff.mp read
      have holds := holds_trim_iff.mp (singleNumber_eq_ok_iff.mp single)
      exact ⟨⟨size, holds⟩, .sized ⟨content, stands, holds⟩⟩
  | sized declaresSize =>
      obtain ⟨alphabetSize, single, rfl⟩ := map_eq_ok_iff.mp read
      have holds := holds_trim_iff.mp (singleNumber_eq_ok_iff.mp single)
      exact ⟨⟨alphabetSize, holds⟩, .counted declaresSize ⟨content, stands, holds⟩⟩
  | @counted size _ declaresSize declaresAlphabetSize =>
      obtain ⟨initial, states, rfl⟩ := map_eq_ok_iff.mp read
      obtain ⟨holds, inRange⟩ := statesOnLine_eq_ok_iff.mp states
      exact ⟨⟨size, declaresSize, initial, holds_trim_iff.mp holds, inRange⟩,
        .entered declaresSize declaresAlphabetSize inRange⟩
  | @entered size _ _ declaresSize declaresAlphabetSize initial_lt =>
      obtain ⟨accepting, states, rfl⟩ := map_eq_ok_iff.mp read
      obtain ⟨holds, inRange⟩ := statesOnLine_eq_ok_iff.mp states
      exact ⟨⟨size, declaresSize, accepting, holds_trim_iff.mp holds, inRange⟩,
        .headed (Nat.le_refl 4) declaresSize declaresAlphabetSize initial_lt inRange (by simp)⟩
  | @headed _ header edges four_le declaresSize declaresAlphabetSize initial_lt accepting_lt
      edge_lt =>
      obtain ⟨more, listed, rfl⟩ := map_eq_ok_iff.mp read
      obtain ⟨usable, lists⟩ := lists_iff_of_edgesOnLine listed
      refine ⟨(wellFormed_iff_of_five_le (by omega)).mpr (usable.imp_right fun holds =>
        ⟨header, declaresSize, declaresAlphabetSize, holds⟩), ?_⟩
      refine .headed (by omega) declaresSize declaresAlphabetSize initial_lt accepting_lt ?_
      intro edge isListed
      rcases List.mem_append.mp isListed with earlier | onLine
      · exact edge_lt edge earlier
      · exact ((lists edge).mp onLine).inRange usable

/-- Behind the lines of a stage, every well-formed line is read. -/
theorem Reached.exists_advance (reached : Reached lines count stage)
    (wellFormed : WellFormed lines (count + 1) content) :
    ∃ next, stage.advance (content, count + 1) = .ok next := by
  unfold Stage.advance
  cases reached with
  | start =>
      obtain ⟨size, holds⟩ := wellFormed
      exact ⟨_, map_eq_ok_iff.mpr
        ⟨size, singleNumber_eq_ok_iff.mpr (holds_trim_iff.mpr holds), rfl⟩⟩
  | sized declaresSize =>
      obtain ⟨alphabetSize, holds⟩ := wellFormed
      exact ⟨_, map_eq_ok_iff.mpr
        ⟨alphabetSize, singleNumber_eq_ok_iff.mpr (holds_trim_iff.mpr holds), rfl⟩⟩
  | counted declaresSize declaresAlphabetSize =>
      obtain ⟨size, alsoDeclares, initial, holds, inRange⟩ := wellFormed
      cases declaresSize.unique alsoDeclares
      exact ⟨_, map_eq_ok_iff.mpr
        ⟨initial, statesOnLine_eq_ok_iff.mpr ⟨holds_trim_iff.mpr holds, inRange⟩, rfl⟩⟩
  | entered declaresSize declaresAlphabetSize initial_lt =>
      obtain ⟨size, alsoDeclares, accepting, holds, inRange⟩ := wellFormed
      cases declaresSize.unique alsoDeclares
      exact ⟨_, map_eq_ok_iff.mpr
        ⟨accepting, statesOnLine_eq_ok_iff.mpr ⟨holds_trim_iff.mpr holds, inRange⟩, rfl⟩⟩
  | @headed _ header edges four_le declaresSize declaresAlphabetSize _ _ _ =>
      have usable : Blank content ∨ HoldsTransitions header content := by
        refine ((wellFormed_iff_of_five_le (by omega)).mp wellFormed).imp_right ?_
        rintro ⟨other, alsoSize, alsoAlphabetSize, source, symbol, targets, holds, parts⟩
        -- The counts that the stage carries are the only ones that the lines declare.
        rw [← declaresSize.unique alsoSize, ← declaresAlphabetSize.unique alsoAlphabetSize] at parts
        exact ⟨source, symbol, targets, holds, parts⟩
      obtain ⟨more, listed⟩ := exists_edgesOnLine usable (count + 1)
      exact ⟨_, map_eq_ok_iff.mpr ⟨more, listed, rfl⟩⟩

end

end Encoding

end Acceptors
