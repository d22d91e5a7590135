import Acceptors.Proofs.CanonicalForm
import Mathlib.Combinatorics.Enumerative.DoubleCounting

/-!
Contract: no deterministic automaton for the same words is smaller.

Owns: states that words lead to, the comparison of sizes by outcomes, and the minimality of
determinization followed by merging.
Does not own: which states have the same outcomes.

A word that leads to a state of a reduced automaton leads to a state with the same outcomes
in every automaton with the same behaviour. As no two states of the reduced automaton have
the same outcomes, these states are different ones.
-/

namespace Acceptors

namespace Automaton

variable {automaton left right : Automaton}

/-! ## States that words lead to -/

/-- Some word leads from the given state to every other. -/
def LeadsEverywhere (automaton : Automaton) (start : Nat) : Prop :=
  ∀ state < automaton.size, ∃ word, automaton.read? start word = some state

theorem leadsEverywhere_determinize : automaton.determinize.LeadsEverywhere 0 := by
  intro state inside
  obtain ⟨subset, found⟩ := Numbering.exists_key?_of_lt (size_determinize ▸ inside)
  obtain ⟨_, word, _, reached⟩ := lists_reachableSubsets_iff.mp (Numbering.mem_of_key? found)
  refine ⟨word, ?_⟩
  rw [read?_determinize_zero, reached]
  exact Numbering.number?_eq_some_iff.mpr found

theorem Congruence.leadsEverywhere_quotient {partition : Partition automaton.size}
    (congruence : automaton.Congruence partition) (unambiguous : automaton.Unambiguous)
    {start : Nat} (inside : start < automaton.size) (everywhere : automaton.LeadsEverywhere start) :
    (automaton.quotient partition).LeadsEverywhere (partition.indexOf start) := by
  intro block blockInside
  rw [size_quotient] at blockInside
  obtain ⟨state, stateInside, rfl⟩ := congruence.consistent.exists_indexOf_eq blockInside
  obtain ⟨word, found⟩ := everywhere state stateInside
  refine ⟨word, ?_⟩
  rw [congruence.read?_quotient unambiguous inside, found]
  rfl

/-! ## Sizes -/

/-- A word that can be read ends in states with the same outcomes. -/
theorem SameOutcomes.exists_read? {leftState rightState leftLast : Nat} {word : Word}
    (same : left.SameOutcomes leftState right rightState)
    (found : left.read? leftState word = some leftLast) :
    ∃ rightLast, right.read? rightState word = some rightLast ∧
      left.SameOutcomes leftLast right rightLast := by
  induction word generalizing leftState rightState with
  | nil =>
      cases found
      exact ⟨rightState, rfl, same⟩
  | cons symbol rest inductionHypothesis =>
      obtain ⟨next, moves, ends⟩ := Option.bind_eq_some_iff.mp found
      rcases same.successors symbol with ⟨stops, _⟩ |
        ⟨leftNext, rightNext, leftMoves, rightMoves, sameNext⟩
      · rw [moves] at stops
        cases stops
      · have sameTarget : leftNext = next := Option.some.inj (leftMoves.symm.trans moves)
        obtain ⟨last, rightEnds, sameLast⟩ := inductionHypothesis (sameTarget ▸ sameNext) ends
        exact ⟨last, Option.bind_eq_some_iff.mpr ⟨rightNext, rightMoves, rightEnds⟩, sameLast⟩

/-- A reduced automaton is no larger than an automaton that has, to all its states that
words lead to, states with the same outcomes. -/
theorem Reduced.size_le (reduced : left.Reduced) {leftState rightState : Nat}
    (everywhere : left.LeadsEverywhere leftState) (inside : rightState < right.size)
    (same : left.SameOutcomes leftState right rightState) : left.size ≤ right.size := by
  have matched (state : Nat) (below : state < left.size) :
      ∃ other < right.size, left.SameOutcomes state right other := by
    obtain ⟨word, found⟩ := everywhere state below
    obtain ⟨other, ends, sameLast⟩ := same.exists_read? found
    exact ⟨other, lt_size_of_read? inside ends, sameLast⟩
  have counted : (Finset.range left.size).card ≤ (Finset.range right.size).card := by
    apply Finset.card_le_card_of_forall_subsingleton fun state other =>
      left.SameOutcomes state right other
    · intro state listed
      obtain ⟨other, below, sameOther⟩ := matched state (Finset.mem_range.mp listed)
      exact ⟨other, Finset.mem_range.mpr below, sameOther⟩
    · intro other _ first firstSame second secondSame
      exact reduced first (Finset.mem_range.mp firstSame.1) second
        (Finset.mem_range.mp secondSame.1) (firstSame.2.trans secondSame.2.symm)
  rwa [Finset.card_range, Finset.card_range] at counted

theorem size_merged_le (unambiguous : right.Unambiguous) {rightState : Nat}
    (single : right.initial = StateSet.singleton rightState)
    (accepts_iff : ∀ word, automaton.Accepts word ↔ right.Accepts word)
    (readable_iff : ∀ word, automaton.Readable word ↔ right.Readable word) :
    automaton.merged.size ≤ right.size := by
  have congruence := automaton.determinize.congruence_refineBy .classes
  have everywhere : automaton.merged.LeadsEverywhere
      ((automaton.determinize.refineBy .classes).partition.indexOf 0) :=
    congruence.leadsEverywhere_quotient unambiguous_determinize
      automaton.determinize.valid.size_pos leadsEverywhere_determinize
  have inside : rightState < right.size :=
    right.valid.initial_lt rightState (single ▸ StateSet.mem_singleton.mpr rfl)
  apply (reduced_quotient_classes unambiguous_determinize).size_le everywhere inside
  apply sameOutcomes_of_initial unambiguous_merged unambiguous initial_merged single
  · intro word
    rw [accepts_merged_iff, accepts_iff]
  · intro word
    rw [readable_merged_iff, readable_iff]

/-- Determinization followed by canonical minimization is no larger than any deterministic
automaton with one initial state that has the same alphabet, accepts the same words and reads
the same words. -/
theorem size_minimizeCanonical_determinize_le (automaton other : Automaton)
    (deterministic : other.checkDeterministic = .ok ()) (single : other.initial.size = 1)
    (alphabetSize_eq : automaton.alphabetSize = other.alphabetSize)
    (accepts_eq : ∀ word, automaton.accepts word = other.accepts word)
    (readable_iff : ∀ word, automaton.OverAlphabet word →
      (automaton.Readable word ↔ other.Readable word)) :
    ∃ reduced, automaton.determinize.minimizeCanonical = .ok reduced ∧
      reduced.size ≤ other.size := by
  obtain ⟨state, isInitial⟩ := StateSet.size_eq_one_iff.mp single
  exact ⟨automaton.merged, minimizeBy_eq_ok unambiguous_determinize .classes,
    size_merged_le (checkDeterministic_eq_ok_iff.mp deterministic) isInitial
      (fun word => accepts_eq_iff.mp (accepts_eq word))
      (readable_iff_of_overAlphabet alphabetSize_eq readable_iff)⟩

theorem size_minimizeCanonical_determinize_guessedEvenOnes_le :
    evenOnes.checkDeterministic = .ok () ∧ evenOnes.initial.size = 1 ∧
      guessedEvenOnes.alphabetSize = evenOnes.alphabetSize ∧
      (∀ word, guessedEvenOnes.accepts word = evenOnes.accepts word) ∧
      (∀ word, guessedEvenOnes.OverAlphabet word →
        (guessedEvenOnes.Readable word ↔ evenOnes.Readable word)) ∧
      ∃ reduced, guessedEvenOnes.determinize.minimizeCanonical = .ok reduced ∧
        reduced.size ≤ evenOnes.size := by
  obtain ⟨alphabetSize_eq, accepts_eq, readable_iff⟩ :=
    (@determinize_merged_eq_iff guessedEvenOnes evenOnes).mp (by decide +kernel)
  exact ⟨rfl, rfl, alphabetSize_eq, accepts_eq, readable_iff,
    size_minimizeCanonical_determinize_le guessedEvenOnes evenOnes rfl rfl alphabetSize_eq
      accepts_eq readable_iff⟩

end Automaton

end Acceptors
