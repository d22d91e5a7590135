import Acceptors.Proofs.Malformed

/-!
Contract: lines are refused at the first one that is malformed, and for what stands up to it.

Owns: how far lines are read, what can be refused at their end, and which errors the reader
returns where no line is malformed.
Does not own: which lines are malformed.
-/

namespace Acceptors

namespace HeaderLine

theorem number_injective {left right : HeaderLine} (same : left.number = right.number) :
    left = right := by
  revert same
  cases left <;> cases right <;> decide

theorem number_le_four (line : HeaderLine) : line.number ≤ 4 := by
  cases line <;> decide

end HeaderLine

namespace Encoding

open Grammar

section

variable {lines : List String} {count : Nat} {stage : Stage}

/-! ## The first malformed line -/

/-- The first lines are read as far as none of them is malformed, and the first one that is
gets refused. -/
theorem readTo_reaches_or_refuses (inside : count ≤ lines.length) :
    (∃ stage, readTo lines count = .ok stage ∧ Reached lines count stage ∧
      ∀ line ≤ count, ¬Malformed lines line) ∨
    ∃ line error, line ≤ count ∧ FirstMalformed lines line ∧
      readTo lines line = .error error ∧ error.line? = some line := by
  induction count with
  | zero =>
      refine Or.inl ⟨.start, readTo_zero, .start, ?_⟩
      rintro line atMost ⟨_, ⟨positive, _⟩, _⟩
      omega
  | succ count inductionHypothesis =>
      rcases inductionHypothesis (Nat.le_of_succ_le inside) with
        ⟨stage, read, reached, faultless⟩ | ⟨line, error, atMost, refused⟩
      · -- All lines so far are well-formed, so the next one decides by itself.
        have stands : Stands lines (count + 1) lines[count] :=
          stands_succ_iff.mpr (List.getElem?_eq_getElem inside)
        cases advanced : stage.advance (lines[count], count + 1) with
        | ok next =>
            obtain ⟨wellFormed, nextReached⟩ := reached.advance stands advanced
            refine Or.inl ⟨next, ?_, nextReached, ?_⟩
            · rw [readTo_succ inside, read, ok_bind, advanced]
            · intro line atMost malformed
              rcases Nat.lt_or_eq_of_le atMost with before | rfl
              · exact faultless line (Nat.le_of_lt_succ before) malformed
              · exact (malformed_iff stands).mp malformed wellFormed
        | error error =>
            refine Or.inr ⟨count + 1, error, Nat.le_refl _, ⟨?_, ?_⟩, ?_, ?_⟩
            · refine (malformed_iff stands).mpr fun wellFormed => ?_
              obtain ⟨next, read⟩ := reached.exists_advance wellFormed
              rw [advanced] at read
              cases read
            · exact fun earlier before => faultless earlier (Nat.le_of_lt_succ before)
            · rw [readTo_succ inside, read, ok_bind, advanced]
            · exact refusesOnly_advance (count + 1) lines[count] stage error advanced
      · exact Or.inr ⟨line, error, Nat.le_succ_of_le atMost, refused⟩

/-! ## The end of the lines -/

/-- Of a header and edges in range, only the counts and the initial states can be refused. -/
theorem violation_of_headerDraft {header : Header} {edges : List Edge} {violation : Violation}
    (initial_lt : ∀ state ∈ header.initial, state < header.size)
    (accepting_lt : ∀ state ∈ header.accepting, state < header.size)
    (edge_lt : ∀ edge ∈ edges, edge.source < header.size ∧
      edge.symbol < header.alphabetSize ∧ edge.target < header.size)
    (refused : (headerDraft header edges).build = .error violation) :
    violation ∈ [Violation.noStates, .emptyAlphabet, .noInitialStates] := by
  have pruned : (headerDraft header edges).Pruned := Draft.pruned_ofEdges _ _ _ _ _
  have check := (Draft.build_eq_error_iff pruned).mp refused
  have whole := check
  rw [Draft.violation?] at check
  split at check
  · cases check
    simp
  · rename_i someState
    split at check
    · cases check
      simp
    · rename_i someSymbol
      split at check
      · cases check
        simp
      · rename_i someInitial
        have initial_nonempty : header.initial ≠ [] := by
          intro none
          rw [headerDraft, Draft.initial_ofEdges, none] at someInitial
          exact someInitial rfl
        have size_ne : header.size ≠ 0 := by simpa [headerDraft] using someState
        have alphabetSize_ne : header.alphabetSize ≠ 0 := by simpa [headerDraft] using someSymbol
        have valid := valid_headerDraft (Nat.pos_of_ne_zero size_ne)
          (Nat.pos_of_ne_zero alphabetSize_ne) initial_nonempty initial_lt accepting_lt edge_lt
        rw [(Draft.violation?_eq_none_iff pruned).mpr valid] at whole
        cases whole

/-- At the end, a missing header line or a count or set that is empty is all that is refused. -/
theorem Reached.finish (reached : Reached lines count stage) :
    (∃ header : HeaderLine, stage.finish = .error (.missingLine header) ∧
      count + 1 = header.number) ∨
    4 ≤ count ∧ ((∃ automaton, stage.finish = .ok automaton) ∨
      ∃ violation ∈ [Violation.noStates, .emptyAlphabet, .noInitialStates],
        stage.finish = .error (.invalid violation)) := by
  cases reached with
  | start => exact Or.inl ⟨.stateCount, rfl, rfl⟩
  | sized => exact Or.inl ⟨.symbolCount, rfl, rfl⟩
  | counted => exact Or.inl ⟨.initialStates, rfl, rfl⟩
  | entered => exact Or.inl ⟨.acceptingStates, rfl, rfl⟩
  | @headed _ header edges four_le _ _ initial_lt accepting_lt edge_lt =>
      refine Or.inr ⟨four_le, ?_⟩
      cases built : (headerDraft header edges).build with
      | ok automaton => exact Or.inl ⟨automaton, by rw [Stage.finish, built]⟩
      | error violation =>
          exact Or.inr ⟨violation, violation_of_headerDraft initial_lt accepting_lt edge_lt built,
            by rw [Stage.finish, built]⟩

/-- Either the first malformed line is refused, or all lines are read and their end decides. -/
theorem readLines_refuses_or_finishes (lines : List String) :
    (∃ line error, line ≤ lines.length ∧ FirstMalformed lines line ∧
      readTo lines line = .error error ∧ error.line? = some line ∧
        readLines lines = .error error) ∨
    ∃ stage, Reached lines lines.length stage ∧ (∀ line, ¬Malformed lines line) ∧
      readLines lines = stage.finish := by
  rcases readTo_reaches_or_refuses (Nat.le_refl lines.length) with
    ⟨stage, read, reached, faultless⟩ | ⟨line, error, inside, isFirst, refused, located⟩
  · refine Or.inr ⟨stage, reached, fun line => ?_, ?_⟩
    · rcases Nat.lt_or_ge lines.length line with behind | atMost
      · exact not_malformed_of_length_lt behind
      · exact faultless line atMost
    · rw [readLines_eq_readTo, read, ok_bind]
  · refine Or.inl ⟨line, error, inside, isFirst, refused, located, ?_⟩
    rw [readLines_eq_readTo, readTo_of_le refused inside]
    rfl

/-! ## Errors of the reader -/

/-- An error at the end refuses no line. -/
theorem Reached.error_of_finish (reached : Reached lines count stage) {error : ReadError}
    (refused : stage.finish = .error error) :
    (∃ header : HeaderLine, error = .missingLine header ∧ count + 1 = header.number) ∨
    4 ≤ count ∧ ∃ violation ∈ [Violation.noStates, .emptyAlphabet, .noInitialStates],
      error = .invalid violation := by
  rcases reached.finish with
    ⟨header, missing, position⟩ | ⟨four_le, ⟨automaton, built⟩ | ⟨violation, listed, invalid⟩⟩
  · exact Or.inl ⟨header, Except.error.inj (refused.symm.trans missing), position⟩
  · cases refused.symm.trans built
  · exact Or.inr ⟨four_le, violation, listed, Except.error.inj (refused.symm.trans invalid)⟩

theorem Reached.line?_eq_none (reached : Reached lines count stage) {error : ReadError}
    (refused : stage.finish = .error error) : error.line? = none := by
  rcases reached.error_of_finish refused with ⟨_, rfl, _⟩ | ⟨_, _, _, rfl⟩ <;> rfl

variable {line : Nat} {error : ReadError} {others : List String}

/-- An error that refuses no line is an error at the end of lines that are all well-formed. -/
theorem exists_finish_of_line?_eq_none (refused : readLines lines = .error error)
    (nowhere : error.line? = none) :
    ∃ stage, Reached lines lines.length stage ∧ (∀ line, ¬Malformed lines line) ∧
      stage.finish = .error error := by
  rcases readLines_refuses_or_finishes lines with
    ⟨line, other, _, _, _, located, alsoRefused⟩ | ⟨stage, reached, faultless, finished⟩
  · cases refused.symm.trans alsoRefused
    cases nowhere.symm.trans located
  · exact ⟨stage, reached, faultless, finished.symm.trans refused⟩

/-- A line is refused exactly if it is the first one that is malformed. -/
theorem exists_readLines_line?_iff :
    (∃ error, readLines lines = .error error ∧ error.line? = some line) ↔
      FirstMalformed lines line := by
  rcases readLines_refuses_or_finishes lines with
    ⟨first, error, _, isFirst, _, located, refused⟩ | ⟨stage, reached, faultless, finished⟩
  · constructor
    · rintro ⟨other, alsoRefused, alsoLocated⟩
      cases refused.symm.trans alsoRefused
      cases located.symm.trans alsoLocated
      exact isFirst
    · intro alsoFirst
      cases isFirst.unique alsoFirst
      exact ⟨error, refused, located⟩
  · refine iff_of_false ?_ fun isFirst => faultless line isFirst.1
    rintro ⟨error, refused, located⟩
    cases (reached.line?_eq_none (finished.symm.trans refused)).symm.trans located

/-- What stands behind a refused line does not matter. -/
theorem readLines_eq_error_of_take (refused : readLines lines = .error error)
    (located : error.line? = some line) (agree : others.take line = lines.take line) :
    readLines others = .error error := by
  rcases readLines_refuses_or_finishes lines with
    ⟨first, alsoError, inside, _, stopped, alsoLocated, alsoRefused⟩ |
      ⟨stage, reached, _, finished⟩
  · cases refused.symm.trans alsoRefused
    cases located.symm.trans alsoLocated
    -- The refused line is one of the first list, and so the second list has it too.
    have longEnough : line ≤ others.length := by
      have length := congrArg List.length agree
      simp only [List.length_take] at length
      omega
    have alsoStopped : readTo others line = .error error := by
      rw [readTo, agree, ← readTo, stopped]
    rw [readLines_eq_readTo, readTo_of_le alsoStopped longEnough]
    rfl
  · cases (reached.line?_eq_none (finished.symm.trans refused)).symm.trans located

theorem readLines_eq_missingLine_iff {header : HeaderLine} :
    readLines lines = .error (.missingLine header) ↔
      lines.length + 1 = header.number ∧ ∀ line, ¬Malformed lines line := by
  constructor
  · intro missing
    obtain ⟨stage, reached, faultless, finished⟩ := exists_finish_of_line?_eq_none missing rfl
    rcases reached.error_of_finish finished with ⟨_, same, position⟩ | ⟨_, _, _, impossible⟩
    · cases same
      exact ⟨position, faultless⟩
    · cases impossible
  · rintro ⟨position, faultless⟩
    rcases readLines_refuses_or_finishes lines with
      ⟨first, _, _, isFirst, _⟩ | ⟨stage, reached, _, finished⟩
    · exact absurd isFirst.1 (faultless first)
    · rcases reached.finish with ⟨other, missing, otherPosition⟩ | ⟨four_le, _⟩
      · rw [finished, missing, HeaderLine.number_injective (otherPosition.symm.trans position)]
      · have atMost := header.number_le_four
        omega

theorem faultless_of_readLines_invalid {violation : Violation}
    (refused : readLines lines = .error (.invalid violation)) :
    4 ≤ lines.length ∧ (∀ line, ¬Malformed lines line) ∧
      violation ∈ [Violation.noStates, .emptyAlphabet, .noInitialStates] := by
  obtain ⟨stage, reached, faultless, finished⟩ := exists_finish_of_line?_eq_none refused rfl
  rcases reached.error_of_finish finished with ⟨_, impossible, _⟩ | ⟨four_le, found, listed, same⟩
  · cases impossible
  · cases same
    exact ⟨four_le, faultless, listed⟩

theorem readLines_ne_notUnicode : readLines lines ≠ .error .notUnicode := by
  intro refused
  obtain ⟨stage, reached, _, finished⟩ := exists_finish_of_line?_eq_none refused rfl
  rcases reached.error_of_finish finished with ⟨_, impossible, _⟩ | ⟨_, _, _, impossible⟩ <;>
    cases impossible

/-- A refused line is the first malformed one, and the error depends on no line behind it.
Where no line is malformed, a missing header line is reported exactly if there are too few
lines, and the automaton as a whole is refused only for an empty count or set. -/
theorem readLines_refuses_first_malformed (lines : List String) :
    (∀ line, (∃ error, readLines lines = .error error ∧ error.line? = some line) ↔
      FirstMalformed lines line) ∧
    (∀ error line others, readLines lines = .error error → error.line? = some line →
      others.take line = lines.take line → readLines others = .error error) ∧
    (∀ header, readLines lines = .error (.missingLine header) ↔
      lines.length + 1 = header.number ∧ ∀ line, ¬Malformed lines line) ∧
    (∀ violation, readLines lines = .error (.invalid violation) →
      4 ≤ lines.length ∧ (∀ line, ¬Malformed lines line) ∧
        violation ∈ [Violation.noStates, .emptyAlphabet, .noInitialStates]) ∧
    readLines lines ≠ .error .notUnicode := by
  refine ⟨fun line => exists_readLines_line?_iff, ?_, fun header => readLines_eq_missingLine_iff,
    fun violation => faultless_of_readLines_invalid, readLines_ne_notUnicode⟩
  intro error line others refused located agree
  exact readLines_eq_error_of_take refused located agree

end

/-- Blank lines count, a token that is no number comes before an index out of range, and what
stands behind is not looked at. -/
example : readLines ["2", "1", "0", "1", "", "0 0 7 x", "?"] =
    .error (.invalidNumber 6 "x") := by
  decide +kernel

end Encoding

end Acceptors
