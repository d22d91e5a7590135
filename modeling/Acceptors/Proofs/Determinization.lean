import Acceptors.Proofs.Determinism
import Acceptors.Proofs.Discovery
import Acceptors.Proofs.Simulation

/-!
Contract: the subset construction keeps what an automaton accepts and what it reads.

Owns: the transitions and the accepting states of the constructed automaton in terms
of the subsets behind its states, and its language.
Does not own: the search for the subsets, and the order of their numbers.

Reading a word from the number of a subset ends in the number of the set that the
word reaches from the subset, and nowhere if that set is empty (`read?_determinize`).
-/

namespace Acceptors

namespace Automaton

variable {automaton : Automaton}

/-- The subsets behind the states of the constructed automaton. -/
abbrev numberedSubsets (automaton : Automaton) : Numbering StateSet :=
  automaton.reachableSubsets.subsets

theorem empty_not_numbered : automaton.numberedSubsets.number? ∅ = none := by
  apply Numbering.number?_eq_none_iff.mpr
  intro listed
  exact (lists_reachableSubsets_iff.mp listed).1 rfl

theorem ne_empty_of_number? {subset : StateSet} {number : Nat}
    (numbered : automaton.numberedSubsets.number? subset = some number) : subset ≠ ∅ := by
  rintro rfl
  rw [empty_not_numbered] at numbered
  cases numbered

theorem symbol_lt_of_number?_image {subset : StateSet} {symbol number : Nat}
    (numbered : automaton.numberedSubsets.number? (automaton.image subset symbol) = some number) :
    symbol < automaton.alphabetSize :=
  Nat.lt_of_not_le fun outside =>
    ne_empty_of_number? numbered (image_eq_empty_of_symbol outside)

/-- The image of a numbered subset has a number unless it is empty. -/
theorem exists_number?_image {source symbol : Nat} {subset : StateSet}
    (found : automaton.numberedSubsets.key? source = some subset)
    (nonempty : automaton.image subset symbol ≠ ∅) :
    ∃ target, automaton.numberedSubsets.number? (automaton.image subset symbol) = some target := by
  have listed : automaton.reachableSubsets.Lists (automaton.reached subset [symbol]) :=
    reached_reachableSubsets (Numbering.mem_of_key? found) nonempty
  exact Numbering.exists_number?_of_mem listed

/-- The states that a word reaches have a number unless there are none. -/
theorem exists_number?_reached_iff {word : Word} :
    (∃ number, automaton.numberedSubsets.number? (automaton.reached automaton.initial word) =
      some number) ↔ automaton.reached automaton.initial word ≠ ∅ := by
  constructor
  · intro ⟨number, found⟩
    exact ne_empty_of_number? found
  · intro nonempty
    apply Numbering.exists_number?_of_mem
    apply lists_reachableSubsets_iff.mpr
    exact ⟨nonempty, word, overAlphabet_of_reached_ne_empty nonempty, rfl⟩

/-! ## Transitions and accepting states -/

theorem mem_targets_determinize_iff {source symbol target : Nat} :
    target ∈ automaton.determinize.targets source symbol ↔
      ∃ subset, automaton.numberedSubsets.key? source = some subset ∧
        symbol < automaton.alphabetSize ∧
        automaton.numberedSubsets.number? (automaton.image subset symbol) = some target := by
  have listed : target ∈ automaton.determinize.targets source symbol ↔
      ⟨source, symbol, target⟩ ∈ automaton.subsetEdges automaton.numberedSubsets :=
    Draft.mem_targets_ofEdges
  rw [listed]
  simp only [subsetEdges, List.mem_flatMap, List.mem_filterMap, Option.map_eq_some_iff,
    Edge.mk.injEq, Prod.exists, Numbering.mem_entries_iff, symbols, List.mem_range]
  constructor
  · intro moves
    obtain ⟨_, subset, found, _, inAlphabet, _, numbered, rfl, rfl, rfl⟩ := moves
    exact ⟨subset, found, inAlphabet, numbered⟩
  · intro moves
    obtain ⟨subset, found, inAlphabet, numbered⟩ := moves
    exact ⟨source, subset, found, symbol, inAlphabet, target, numbered, rfl, rfl, rfl⟩

theorem unambiguous_determinize : automaton.determinize.Unambiguous := by
  intro source symbol left right leftMoves rightMoves
  obtain ⟨leftSubset, leftFound, _, leftNumber⟩ := mem_targets_determinize_iff.mp leftMoves
  obtain ⟨rightSubset, rightFound, _, rightNumber⟩ := mem_targets_determinize_iff.mp rightMoves
  rw [leftFound] at rightFound
  rw [Option.some.inj rightFound, rightNumber] at leftNumber
  exact (Option.some.inj leftNumber).symm

theorem size_determinize : automaton.determinize.size = automaton.numberedSubsets.size :=
  Draft.size_ofEdges

theorem initial_determinize : automaton.determinize.initial = StateSet.singleton 0 :=
  Draft.initial_ofEdges

theorem alphabetSize_determinize :
    automaton.determinize.alphabetSize = automaton.alphabetSize :=
  Draft.alphabetSize_ofEdges

section Subset

variable {source : Nat} {subset : StateSet}

theorem successor?_determinize
    (found : automaton.numberedSubsets.key? source = some subset) (symbol : Nat) :
    automaton.determinize.successor? source symbol =
      automaton.numberedSubsets.number? (automaton.image subset symbol) := by
  apply Option.ext
  intro target
  rw [unambiguous_determinize.successor?_eq_some_iff, mem_targets_determinize_iff]
  constructor
  · intro ⟨other, otherFound, _, numbered⟩
    rw [found] at otherFound
    exact Option.some.inj otherFound ▸ numbered
  · intro numbered
    exact ⟨subset, found, symbol_lt_of_number?_image numbered, numbered⟩

theorem isAccepting_determinize
    (found : automaton.numberedSubsets.key? source = some subset) :
    automaton.determinize.isAccepting source = subset.intersects automaton.accepting := by
  have accepting : automaton.determinize.accepting =
      automaton.acceptingSubsets automaton.numberedSubsets := Draft.accepting_ofEdges
  apply Bool.eq_iff_iff.mpr
  rw [isAccepting_iff, accepting, acceptingSubsets, StateSet.mem_ofList]
  simp only [List.mem_map, List.mem_filter, Prod.exists, Numbering.mem_entries_iff]
  constructor
  · intro ⟨_, other, ⟨otherFound, meets⟩, same⟩
    rw [same, found] at otherFound
    exact Option.some.inj otherFound ▸ meets
  · intro meets
    exact ⟨source, subset, ⟨found, meets⟩, rfl⟩

/-- Reading a word from a subset's number ends in the number of the set it reaches. -/
theorem read?_determinize (found : automaton.numberedSubsets.key? source = some subset)
    (word : Word) :
    automaton.determinize.read? source word =
      automaton.numberedSubsets.number? (automaton.reached subset word) := by
  induction word generalizing source subset with
  | nil => exact (Numbering.number?_eq_some_iff.mpr found).symm
  | cons symbol rest inductionHypothesis =>
      rw [read?, successor?_determinize found, reached_cons]
      cases numbered : automaton.numberedSubsets.number? (automaton.image subset symbol) with
      | some next => exact inductionHypothesis (Numbering.number?_eq_some_iff.mp numbered)
      | none =>
          -- An image without a number is empty, and so is all that is reached from it.
          have nothing : automaton.image subset symbol = ∅ := by
            apply Decidable.byContradiction
            intro nonempty
            obtain ⟨next, known⟩ := exists_number?_image found nonempty
            cases numbered.symm.trans known
          rw [nothing, reached_empty, empty_not_numbered]
          rfl

end Subset

/-! ## Language -/

theorem read?_determinize_zero (word : Word) :
    automaton.determinize.read? 0 word =
      automaton.numberedSubsets.number? (automaton.reached automaton.initial word) :=
  read?_determinize automaton.reachableSubsets.started word

theorem accepts_determinize_iff {word : Word} :
    automaton.determinize.Accepts word ↔ automaton.Accepts word := by
  rw [unambiguous_determinize.accepts_iff_outcome?, initial_determinize, accepts_iff_intersects]
  simp only [StateSet.mem_singleton, exists_eq_left, outcome?, Option.map_eq_some_iff,
    read?_determinize_zero]
  constructor
  · intro ⟨number, numbered, accepted⟩
    rwa [isAccepting_determinize (Numbering.number?_eq_some_iff.mp numbered)] at accepted
  · intro meets
    obtain ⟨state, belongs, _⟩ := StateSet.intersects_iff.mp meets
    have nonempty := StateSet.ne_empty_iff.mpr ⟨state, belongs⟩
    obtain ⟨number, numbered⟩ := exists_number?_reached_iff.mpr nonempty
    refine ⟨number, numbered, ?_⟩
    rw [isAccepting_determinize (Numbering.number?_eq_some_iff.mp numbered), meets]

theorem readable_determinize_iff {word : Word} :
    automaton.determinize.Readable word ↔ automaton.Readable word := by
  rw [unambiguous_determinize.readable_iff_outcome?, initial_determinize,
    readable_iff_reached_ne_empty, ← exists_number?_reached_iff]
  simp only [StateSet.mem_singleton, exists_eq_left, outcome?, Option.isSome_map,
    read?_determinize_zero, Option.isSome_iff_exists]

/-- The constructed automaton accepts the same words, under either strategy, and is
deterministic with state zero as its only initial state. -/
theorem determinize_preserves_language (automaton : Automaton) :
    (∀ strategy word,
      automaton.determinize.acceptsWith strategy word = automaton.acceptsWith strategy word) ∧
    automaton.determinize.isDeterministic = true ∧
    automaton.determinize.alphabetSize = automaton.alphabetSize ∧
    automaton.determinize.initial = StateSet.singleton 0 := by
  refine ⟨?_, ?_, alphabetSize_determinize, initial_determinize⟩
  · intro strategy word
    exact acceptsWith_congr accepts_determinize_iff
  · exact isDeterministic_eq_true_iff.mpr unambiguous_determinize

end Automaton

end Acceptors
