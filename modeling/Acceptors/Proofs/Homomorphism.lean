import Acceptors.Proofs.CheckedMerging
import Acceptors.Proofs.Separation

/-!
Contract: the automaton of merged states seen from the states that were merged.

Owns: when the blocks of a partition are a homomorphic image of an automaton, and that the
blocks of both minimizations are.
Does not own: the partitions, and which words are accepted.

The transitions of a block are entered once for every member. A block moves as each of its
members does, whichever of them was entered last, because all members move into one block.
-/

namespace Acceptors

namespace Automaton

variable {automaton folded : Automaton} {partition : Partition automaton.size}

/-- Sending every state to its block is onto and keeps transitions, where there are any and
where there are none, accepting states and initial states. -/
structure FoldsOnto (automaton : Automaton) (partition : Partition automaton.size)
    (folded : Automaton) : Prop where
  alphabetSize_eq : folded.alphabetSize = automaton.alphabetSize
  exists_block : ∀ state < automaton.size,
    ∃ block < folded.size, partition.blockOf? state = some block
  exists_state : ∀ block < folded.size,
    ∃ state < automaton.size, partition.blockOf? state = some block
  successor?_eq : ∀ state block, partition.blockOf? state = some block → ∀ symbol,
    folded.successor? block symbol = (automaton.successor? state symbol).bind partition.blockOf?
  successors?_eq_none_iff : ∀ state block, partition.blockOf? state = some block → ∀ symbol,
    folded.successors? block symbol = none ↔ automaton.successors? state symbol = none
  isAccepting_eq : ∀ state block, partition.blockOf? state = some block →
    folded.isAccepting block = automaton.isAccepting state
  mem_initial_iff : ∀ block,
    block ∈ folded.initial ↔ ∃ state ∈ automaton.initial, partition.blockOf? state = some block

/-! ## Departures without targets -/

theorem targets_eq_empty_iff {source symbol : Nat} :
    automaton.targets source symbol = ∅ ↔ automaton.successors? source symbol = none := by
  cases found : automaton.successors? source symbol with
  | none =>
      refine iff_of_true ?_ rfl
      ext target
      simp [mem_targets_iff, found]
  | some targets =>
      refine iff_of_false ?_ nofun
      have nonempty := automaton.valid.pruned _ _ found
      rwa [Draft.mem_targets_of_transitions found]

theorem Unambiguous.successor?_eq_none_iff (unambiguous : automaton.Unambiguous)
    {source symbol : Nat} :
    automaton.successor? source symbol = none ↔ automaton.successors? source symbol = none := by
  rw [← targets_eq_empty_iff, Option.eq_none_iff_forall_not_mem]
  constructor
  · intro stops
    ext target
    refine iff_of_false ?_ (StateSet.not_mem_empty target)
    intro moves
    exact stops target (unambiguous.successor?_eq_some_iff.mpr moves)
  · intro nothing target found
    have moves := mem_targets_of_successor? found
    rw [nothing] at moves
    exact StateSet.not_mem_empty target moves

/-! ## Merged states -/

theorem bind_blockOf?_successor? (state symbol : Nat) :
    (automaton.successor? state symbol).bind partition.blockOf? =
      (automaton.successor? state symbol).map partition.indexOf := by
  cases found : automaton.successor? state symbol with
  | none => rfl
  | some target =>
      exact Partition.blockOf?_eq_some_iff.mpr ⟨lt_size_of_successor? found, rfl⟩

theorem Congruence.foldsOnto_quotient (congruence : automaton.Congruence partition)
    (unambiguous : automaton.Unambiguous) :
    automaton.FoldsOnto partition (automaton.quotient partition) where
  alphabetSize_eq := alphabetSize_quotient partition
  exists_block := by
    intro state inside
    rw [size_quotient]
    exact ⟨partition.indexOf state, partition.indexOf_lt inside,
      Partition.blockOf?_eq_some_iff.mpr ⟨inside, rfl⟩⟩
  exists_state := by
    intro block inside
    rw [size_quotient] at inside
    obtain ⟨state, below, index⟩ := congruence.consistent.exists_indexOf_eq inside
    exact ⟨state, below, Partition.blockOf?_eq_some_iff.mpr ⟨below, index⟩⟩
  successor?_eq := by
    intro state block found symbol
    obtain ⟨inside, rfl⟩ := Partition.blockOf?_eq_some_iff.mp found
    rw [congruence.successor?_quotient unambiguous inside, bind_blockOf?_successor?]
  successors?_eq_none_iff := by
    intro state block found symbol
    obtain ⟨inside, rfl⟩ := Partition.blockOf?_eq_some_iff.mp found
    rw [← (congruence.unambiguous_quotient unambiguous).successor?_eq_none_iff,
      ← unambiguous.successor?_eq_none_iff, congruence.successor?_quotient unambiguous inside,
      Option.map_eq_none_iff]
  isAccepting_eq := by
    intro state block found
    obtain ⟨inside, rfl⟩ := Partition.blockOf?_eq_some_iff.mp found
    exact congruence.isAccepting_quotient inside
  mem_initial_iff := by
    intro block
    rw [initial_quotient, StateSet.mem_map]
    constructor
    · rintro ⟨state, isInitial, index⟩
      have inside := automaton.valid.initial_lt state isInitial
      exact ⟨state, isInitial, Partition.blockOf?_eq_some_iff.mpr ⟨inside, index⟩⟩
    · rintro ⟨state, isInitial, found⟩
      exact ⟨state, isInitial, (Partition.blockOf?_eq_some_iff.mp found).2⟩

/-- An image of a complete automaton is complete. -/
theorem FoldsOnto.complete (folds : automaton.FoldsOnto partition folded)
    (complete : automaton.Complete) : folded.Complete := by
  intro block blockInside symbol inAlphabet
  obtain ⟨state, inside, found⟩ := folds.exists_state block blockInside
  have moves := complete state inside symbol (folds.alphabetSize_eq ▸ inAlphabet)
  rw [ne_eq, targets_eq_empty_iff] at moves ⊢
  rwa [folds.successors?_eq_none_iff state block found]

theorem exists_foldsOnto (unambiguous : automaton.Unambiguous) (comparison : Comparison) :
    ∃ partition reduced, automaton.partitionBy comparison = .ok partition ∧
      automaton.minimizeBy comparison = .ok reduced ∧
      Checked.quotient automaton partition = .ok reduced ∧
      automaton.FoldsOnto partition reduced ∧ (automaton.Complete → reduced.Complete) := by
  have congruence := automaton.congruence_refineBy comparison
  have folds := congruence.foldsOnto_quotient unambiguous
  exact ⟨_, _, partitionBy_eq_ok unambiguous comparison, minimizeBy_eq_ok unambiguous comparison,
    Checked.quotient_eq_ok_iff.mpr
      ⟨Checked.mergeable_of_congruence congruence unambiguous, rfl⟩,
    folds, folds.complete⟩

/-- Both minimizations of a deterministic automaton return a homomorphic image of it, which
has all transitions if the automaton has. Entering the transitions of the members one after
the other, each in place of those before it, ends in the same image. -/
theorem minimizations_fold_onto (automaton : Automaton)
    (deterministic : automaton.checkDeterministic = .ok ()) :
    (∃ partition reduced, automaton.partitionBy .successors = .ok partition ∧
      automaton.minimize = .ok reduced ∧ Checked.quotient automaton partition = .ok reduced ∧
      automaton.FoldsOnto partition reduced ∧ (automaton.Complete → reduced.Complete)) ∧
    ∃ partition reduced, automaton.partitionBy .classes = .ok partition ∧
      automaton.minimizeCanonical = .ok reduced ∧
      Checked.quotient automaton partition = .ok reduced ∧
      automaton.FoldsOnto partition reduced ∧ (automaton.Complete → reduced.Complete) := by
  have unambiguous := checkDeterministic_eq_ok_iff.mp deterministic
  exact ⟨exists_foldsOnto unambiguous .successors, exists_foldsOnto unambiguous .classes⟩

theorem twiceEvenOnes_minimizations_fold_onto :
    twiceEvenOnes.checkDeterministic = .ok () ∧ twiceEvenOnes.Complete ∧
    (∃ partition reduced, twiceEvenOnes.partitionBy .successors = .ok partition ∧
      twiceEvenOnes.minimize = .ok reduced ∧
      Checked.quotient twiceEvenOnes partition = .ok reduced ∧
      twiceEvenOnes.FoldsOnto partition reduced ∧ reduced.Complete) ∧
    ∃ partition reduced, twiceEvenOnes.partitionBy .classes = .ok partition ∧
      twiceEvenOnes.minimizeCanonical = .ok reduced ∧
      Checked.quotient twiceEvenOnes partition = .ok reduced ∧
      twiceEvenOnes.FoldsOnto partition reduced ∧ reduced.Complete := by
  have deterministic : twiceEvenOnes.checkDeterministic = .ok () := rfl
  have complete : twiceEvenOnes.Complete := by unfold Complete; decide
  obtain ⟨⟨rawPartition, raw, rawFound, rawReduces, rawEntered, rawFolds, rawComplete⟩,
    partition, reduced, found, reduces, entered, folds, stillComplete⟩ :=
    minimizations_fold_onto twiceEvenOnes deterministic
  exact ⟨deterministic, complete,
    ⟨rawPartition, raw, rawFound, rawReduces, rawEntered, rawFolds, rawComplete complete⟩,
    partition, reduced, found, reduces, entered, folds, stillComplete complete⟩

end Automaton

end Acceptors
