import Acceptors.Proofs.Merging

/-!
Contract: states with the same outcomes.

Owns: the comparison of states by the outcomes of all words, its agreement with the
partition that compares classes, and the absence of equivalent states after merging.
Does not own: the numbers that merged states get.

The outcomes see where a run dies, so a missing transition differs from a transition
into a state that accepts nothing. Comparing classes never separates states with the
same outcomes, because the signatures of such states agree in every partition that has
not yet separated any.
-/

namespace Acceptors

namespace Automaton

/-- Every word has the same outcome from both states. -/
def SameOutcomes (left : Automaton) (leftState : Nat) (right : Automaton)
    (rightState : Nat) : Prop :=
  ∀ word, left.outcome? leftState word = right.outcome? rightState word

namespace SameOutcomes

variable {left right : Automaton} {leftState rightState : Nat}

theorem symm (same : left.SameOutcomes leftState right rightState) :
    right.SameOutcomes rightState left leftState :=
  fun word => (same word).symm

theorem trans {other : Automaton} {otherState : Nat}
    (first : left.SameOutcomes leftState right rightState)
    (second : right.SameOutcomes rightState other otherState) :
    left.SameOutcomes leftState other otherState :=
  fun word => (first word).trans (second word)

theorem isAccepting_eq (same : left.SameOutcomes leftState right rightState) :
    left.isAccepting leftState = right.isAccepting rightState :=
  Option.some.inj (same [])

/-- States with the same outcomes both stop on a symbol, or both move on to states with
the same outcomes. -/
theorem successors (same : left.SameOutcomes leftState right rightState) (symbol : Nat) :
    left.successor? leftState symbol = none ∧ right.successor? rightState symbol = none ∨
      ∃ leftNext rightNext, left.successor? leftState symbol = some leftNext ∧
        right.successor? rightState symbol = some rightNext ∧
        left.SameOutcomes leftNext right rightNext := by
  have shifted (rest : Word) := same (symbol :: rest)
  simp only [outcome?_cons] at shifted
  cases leftMoves : left.successor? leftState symbol with
  | none =>
      cases rightMoves : right.successor? rightState symbol with
      | none => exact Or.inl ⟨rfl, rfl⟩
      | some rightNext =>
          have impossible := shifted []
          rw [leftMoves, rightMoves] at impossible
          cases impossible
  | some leftNext =>
      cases rightMoves : right.successor? rightState symbol with
      | none =>
          have impossible := shifted []
          rw [leftMoves, rightMoves] at impossible
          cases impossible
      | some rightNext =>
          refine Or.inr ⟨leftNext, rightNext, rfl, rfl, fun rest => ?_⟩
          have next := shifted rest
          rw [leftMoves, rightMoves] at next
          exact next

end SameOutcomes

variable {automaton : Automaton}

/-- States that may be merged have the same outcomes. -/
theorem Congruence.sameOutcomes {partition : Partition automaton.size}
    (congruence : automaton.Congruence partition) (unambiguous : automaton.Unambiguous)
    {left right : Nat} (leftInside : left < automaton.size) (rightInside : right < automaton.size)
    (together : partition.indexOf left = partition.indexOf right) :
    automaton.SameOutcomes left automaton right := by
  intro word
  rw [← congruence.outcome?_quotient unambiguous leftInside, together,
    congruence.outcome?_quotient unambiguous rightInside]

/-! ## Comparing classes separates no equivalent states -/

/-- Equivalent states lie together. -/
def Respects (automaton : Automaton) (partition : Partition automaton.size) : Prop :=
  ∀ left < automaton.size, ∀ right < automaton.size,
    automaton.SameOutcomes left automaton right →
      partition.indexOf left = partition.indexOf right

theorem Respects.signature_eq {partition : Partition automaton.size}
    (respects : automaton.Respects partition) {left right : Nat}
    (same : automaton.SameOutcomes left automaton right) :
    automaton.signature .classes partition left =
      automaton.signature .classes partition right := by
  change (automaton.row left).map (Option.map partition.indexOf) =
    (automaton.row right).map (Option.map partition.indexOf)
  rw [row, row, List.map_map, List.map_map, List.map_inj_left]
  intro symbol _
  rcases same.successors symbol with ⟨leftStops, rightStops⟩ |
    ⟨leftNext, rightNext, leftMoves, rightMoves, sameNext⟩
  · simp [leftStops, rightStops]
  · have together := respects leftNext (lt_size_of_successor? leftMoves) rightNext
      (lt_size_of_successor? rightMoves) sameNext
    simp [leftMoves, rightMoves, together]

/-- No division separates equivalent states. -/
theorem survives_respects :
    Survives (automaton.signature .classes) fun partition =>
      partition.Consistent ∧ automaton.Respects partition :=
  survives_joins fun _ respects _ _ same => Respects.signature_eq respects same

theorem respects_acceptancePartition : automaton.Respects automaton.acceptancePartition :=
  fun _ leftInside _ rightInside same =>
    (Partition.indexOf_ofTest_eq_iff leftInside rightInside).mpr same.isAccepting_eq

theorem respects_refineBy_classes (automaton : Automaton) :
    automaton.Respects (automaton.refineBy .classes).partition := by
  rw [refineBy_eq]
  exact (survives_respects.refine
    ⟨Partition.consistent_ofTest _ _, respects_acceptancePartition⟩).2

/-- Comparing classes puts two states together exactly when all outcomes agree. -/
theorem indexOf_refineBy_classes_eq_iff (unambiguous : automaton.Unambiguous)
    {left right : Nat} (leftInside : left < automaton.size) (rightInside : right < automaton.size) :
    (automaton.refineBy .classes).partition.indexOf left =
        (automaton.refineBy .classes).partition.indexOf right ↔
      automaton.SameOutcomes left automaton right := by
  constructor
  · exact (automaton.congruence_refineBy .classes).sameOutcomes unambiguous leftInside rightInside
  · exact automaton.respects_refineBy_classes left leftInside right rightInside

/-! ## Reduced automata -/

/-- No two states have the same outcomes. -/
def Reduced (automaton : Automaton) : Prop :=
  ∀ left < automaton.size, ∀ right < automaton.size,
    automaton.SameOutcomes left automaton right → left = right

theorem reduced_quotient_classes (unambiguous : automaton.Unambiguous) :
    (automaton.quotient (automaton.refineBy .classes).partition).Reduced := by
  have congruence := automaton.congruence_refineBy .classes
  intro left leftInside right rightInside same
  rw [size_quotient] at leftInside rightInside
  obtain ⟨leftState, leftBelow, rfl⟩ := congruence.consistent.exists_indexOf_eq leftInside
  obtain ⟨rightState, rightBelow, rfl⟩ := congruence.consistent.exists_indexOf_eq rightInside
  apply (indexOf_refineBy_classes_eq_iff unambiguous leftBelow rightBelow).mpr
  intro word
  rw [← congruence.outcome?_quotient unambiguous leftBelow, same word,
    congruence.outcome?_quotient unambiguous rightBelow]

end Automaton

end Acceptors
