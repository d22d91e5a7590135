import Acceptors.Proofs.CanonicalForm
import Acceptors.Proofs.Merging
import Acceptors.Proofs.Targets

/-!
Contract: automata that have a transition for every state and symbol.

Owns: the number of transitions of a complete automaton, and what a minimization makes of one.
Does not own: the words that a complete automaton reads.

A block is never empty, so it takes a transition on every symbol over from any of its members.
-/

namespace Acceptors

namespace Automaton

variable {automaton : Automaton}

theorem Complete.exists_target (complete : automaton.Complete) {source symbol : Nat}
    (inside : source < automaton.size) (inAlphabet : symbol < automaton.alphabetSize) :
    ∃ target, target ∈ automaton.targets source symbol :=
  StateSet.ne_empty_iff.mp (complete source inside symbol inAlphabet)

/-- There is an entry for every state and symbol. -/
theorem Complete.transitionCount_eq (complete : automaton.Complete) :
    automaton.transitionCount = automaton.size * automaton.alphabetSize := by
  have listed : automaton.departures ⊆ automaton.transitions.keys := by
    intro departure inRange
    obtain ⟨sourceInside, symbolInside⟩ := mem_departures_iff.mp inRange
    obtain ⟨target, moves⟩ := complete.exists_target sourceInside symbolInside
    obtain ⟨targets, entry, _⟩ := mem_targets_iff.mp moves
    have found : automaton.transitions[departure]? = some targets := entry
    apply Std.ExtTreeMap.mem_keys.mpr
    rw [Std.ExtTreeMap.mem_iff_isSome_getElem?, found, Option.isSome_some]
  apply Nat.le_antisymm automaton.transitionCount_le
  rw [← length_departures, transitionCount, ← Std.ExtTreeMap.length_keys]
  exact automaton.nodup_departures.length_le_of_subset listed

theorem Complete.quotient {partition : Partition automaton.size} (complete : automaton.Complete)
    (consistent : partition.Consistent) : (automaton.quotient partition).Complete := by
  intro block inside symbol inAlphabet
  rw [size_quotient] at inside
  rw [alphabetSize_quotient] at inAlphabet
  obtain ⟨source, sourceInside, index⟩ := consistent.exists_indexOf_eq inside
  obtain ⟨target, moves⟩ := complete.exists_target sourceInside inAlphabet
  exact StateSet.ne_empty_iff.mpr ⟨partition.indexOf target,
    mem_targets_quotient_iff.mpr ⟨source, target, moves, index, rfl⟩⟩

/-- The automaton is deterministic, starts in the given state and no other, and has a transition
for every state and symbol. -/
structure FullTable (automaton : Automaton) (first : Nat) : Prop where
  initial_eq : automaton.initial = .singleton first
  deterministic : automaton.isDeterministic = true
  transitionCount_eq : automaton.transitionCount = automaton.size * automaton.alphabetSize

theorem Complete.fullTable (complete : automaton.Complete) {first : Nat}
    (initial_eq : automaton.initial = .singleton first) (unambiguous : automaton.Unambiguous) :
    automaton.FullTable first :=
  ⟨initial_eq, isDeterministic_eq_true_iff.mpr unambiguous, complete.transitionCount_eq⟩

/-- Both minimizations succeed and start in the block of the initial state. -/
theorem Complete.exists_fullTable_of_minimizeBy (complete : automaton.Complete) {first : Nat}
    (initial_eq : automaton.initial = .singleton first) (unambiguous : automaton.Unambiguous)
    (comparison : Comparison) :
    ∃ partition reduced, automaton.partitionBy comparison = .ok partition ∧
      automaton.minimizeBy comparison = .ok reduced ∧
      reduced.alphabetSize = automaton.alphabetSize ∧
      reduced.FullTable (partition.indexOf first) := by
  have congruence := congruence_refineBy automaton comparison
  refine ⟨_, _, partitionBy_eq_ok unambiguous comparison, minimizeBy_eq_ok unambiguous comparison,
    alphabetSize_quotient _, ?_⟩
  apply (complete.quotient congruence.consistent).fullTable
  · rw [initial_quotient, initial_eq, StateSet.map_singleton]
  · exact congruence.unambiguous_quotient unambiguous

end Automaton

end Acceptors
