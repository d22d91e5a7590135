import Acceptors.Proofs.Equivalence
import Acceptors.Proofs.Lockstep

/-!
Contract: one automaton for all automata with the same behaviour.

Owns: the canonical form of an automaton and the condition under which two automata
have the same form.
Does not own: how small the canonical form is.

The form is determinized twice, with states merged in between. Merging leaves no two
states with the same outcomes, so two merged automata with the same behaviour match
state by state, and the second subset construction forgets how the states were named.
-/

namespace Acceptors

namespace Automaton

variable {left right automaton : Automaton}

/-! ## Reduced automata with the same outcomes -/

/-- Two single states with the same outcomes. -/
def SingleSameOutcomes (left right : Automaton) (first second : StateSet) : Prop :=
  ∃ leftState < left.size, ∃ rightState < right.size,
    first = StateSet.singleton leftState ∧ second = StateSet.singleton rightState ∧
      left.SameOutcomes leftState right rightState

namespace SingleSameOutcomes

variable {first second otherFirst otherSecond : StateSet}

theorem images (single : SingleSameOutcomes left right first second)
    (leftUnambiguous : left.Unambiguous) (rightUnambiguous : right.Unambiguous) (symbol : Nat) :
    left.image first symbol = ∅ ∧ right.image second symbol = ∅ ∨
      left.image first symbol ≠ ∅ ∧ right.image second symbol ≠ ∅ ∧
        SingleSameOutcomes left right (left.image first symbol) (right.image second symbol) := by
  obtain ⟨leftState, _, rightState, _, rfl, rfl, same⟩ := single
  rw [leftUnambiguous.image_singleton, rightUnambiguous.image_singleton]
  rcases same.successors symbol with ⟨leftStops, rightStops⟩ |
    ⟨leftNext, rightNext, leftMoves, rightMoves, sameNext⟩
  · rw [leftStops, rightStops]
    exact Or.inl ⟨rfl, rfl⟩
  · rw [leftMoves, rightMoves]
    refine Or.inr ⟨?_, ?_, leftNext, lt_size_of_successor? leftMoves, rightNext,
      lt_size_of_successor? rightMoves, rfl, rfl, sameNext⟩
    · exact StateSet.ne_empty_iff.mpr ⟨leftNext, StateSet.mem_singleton.mpr rfl⟩
    · exact StateSet.ne_empty_iff.mpr ⟨rightNext, StateSet.mem_singleton.mpr rfl⟩

theorem unique (single : SingleSameOutcomes left right first second)
    (otherSingle : SingleSameOutcomes left right otherFirst otherSecond)
    (leftReduced : left.Reduced) (rightReduced : right.Reduced) :
    first = otherFirst ↔ second = otherSecond := by
  obtain ⟨leftState, leftInside, rightState, rightInside, rfl, rfl, same⟩ := single
  obtain ⟨leftOther, leftOtherInside, rightOther, rightOtherInside, rfl, rfl, otherSame⟩ :=
    otherSingle
  rw [StateSet.singleton_eq_singleton_iff, StateSet.singleton_eq_singleton_iff]
  constructor
  · intro equal
    exact rightReduced rightState rightInside rightOther rightOtherInside
      (same.symm.trans (equal ▸ otherSame))
  · intro equal
    exact leftReduced leftState leftInside leftOther leftOtherInside
      (same.trans (equal ▸ otherSame.symm))

theorem intersects_eq (single : SingleSameOutcomes left right first second) :
    first.intersects left.accepting = second.intersects right.accepting := by
  obtain ⟨leftState, _, rightState, _, rfl, rfl, same⟩ := single
  rw [StateSet.singleton_intersects, StateSet.singleton_intersects]
  exact same.isAccepting_eq

end SingleSameOutcomes

/-- Determinization forgets the names of the states of reduced automata. -/
theorem determinize_eq_of_sameOutcomes (leftUnambiguous : left.Unambiguous)
    (rightUnambiguous : right.Unambiguous) (leftReduced : left.Reduced)
    (rightReduced : right.Reduced) (alphabetSize_eq : left.alphabetSize = right.alphabetSize)
    (initial : SingleSameOutcomes left right left.initial right.initial) :
    left.determinize = right.determinize := by
  have lockstep : Lockstep left right (SingleSameOutcomes left right) := {
    alphabetSize_eq := alphabetSize_eq
    initial := initial
    images := fun _ _ single symbol _ => single.images leftUnambiguous rightUnambiguous symbol
    unique := fun _ _ single _ _ otherSingle =>
      single.unique otherSingle leftReduced rightReduced
    intersects_eq := fun _ _ single => single.intersects_eq }
  exact lockstep.determinize_eq

/-- States from which the same words are accepted and read have the same outcomes. -/
theorem sameOutcomes_of_initial {leftState rightState : Nat}
    (leftUnambiguous : left.Unambiguous) (rightUnambiguous : right.Unambiguous)
    (leftInitial : left.initial = StateSet.singleton leftState)
    (rightInitial : right.initial = StateSet.singleton rightState)
    (accepts_iff : ∀ word, left.Accepts word ↔ right.Accepts word)
    (readable_iff : ∀ word, left.Readable word ↔ right.Readable word) :
    left.SameOutcomes leftState right rightState := by
  intro word
  have accepted := accepts_iff word
  have readable := readable_iff word
  rw [leftUnambiguous.accepts_iff_outcome?, rightUnambiguous.accepts_iff_outcome?, leftInitial,
    rightInitial] at accepted
  rw [leftUnambiguous.readable_iff_outcome?, rightUnambiguous.readable_iff_outcome?, leftInitial,
    rightInitial] at readable
  simp only [StateSet.mem_singleton, exists_eq_left] at accepted readable
  exact outcome_ext accepted readable

/-! ## The canonical form -/

/-- The reachable subsets, merged by their outcomes. -/
def merged (automaton : Automaton) : Automaton :=
  automaton.determinize.quotient (automaton.determinize.refineBy .classes).partition

def canonicalForm (automaton : Automaton) : Except Ambiguity Automaton :=
  automaton.determinize.minimizeCanonical.map determinize

theorem canonicalForm_eq_ok : automaton.canonicalForm = .ok automaton.merged.determinize := by
  rw [canonicalForm, minimizeCanonical, minimizeBy_eq_ok unambiguous_determinize]
  rfl

theorem unambiguous_merged : automaton.merged.Unambiguous :=
  (congruence_refineBy _ _).unambiguous_quotient unambiguous_determinize

theorem initial_merged : automaton.merged.initial =
    StateSet.singleton ((automaton.determinize.refineBy .classes).partition.indexOf 0) := by
  rw [merged, initial_quotient, initial_determinize, StateSet.map_singleton]

theorem accepts_merged_iff {word : Word} :
    automaton.merged.Accepts word ↔ automaton.Accepts word := by
  rw [merged, (congruence_refineBy _ _).accepts_quotient_iff unambiguous_determinize,
    accepts_determinize_iff]

theorem readable_merged_iff {word : Word} :
    automaton.merged.Readable word ↔ automaton.Readable word := by
  rw [merged, (congruence_refineBy _ _).readable_quotient_iff unambiguous_determinize,
    readable_determinize_iff]

theorem alphabetSize_merged : automaton.merged.alphabetSize = automaton.alphabetSize := by
  rw [merged, alphabetSize_quotient, alphabetSize_determinize]

theorem determinize_merged_eq (alphabetSize_eq : left.alphabetSize = right.alphabetSize)
    (accepts_iff : ∀ word, left.Accepts word ↔ right.Accepts word)
    (readable_iff : ∀ word, left.Readable word ↔ right.Readable word) :
    left.merged.determinize = right.merged.determinize := by
  apply determinize_eq_of_sameOutcomes unambiguous_merged unambiguous_merged
    (reduced_quotient_classes unambiguous_determinize)
    (reduced_quotient_classes unambiguous_determinize)
  · rw [alphabetSize_merged, alphabetSize_merged, alphabetSize_eq]
  · have isInitial {automaton : Automaton} :
        (automaton.determinize.refineBy .classes).partition.indexOf 0 <
          automaton.merged.size := by
      apply automaton.merged.valid.initial_lt
      rw [initial_merged]
      exact StateSet.mem_singleton.mpr rfl
    refine ⟨_, isInitial, _, isInitial, initial_merged, initial_merged, ?_⟩
    apply sameOutcomes_of_initial unambiguous_merged unambiguous_merged initial_merged
      initial_merged
    · intro word
      rw [accepts_merged_iff, accepts_merged_iff, accepts_iff]
    · intro word
      rw [readable_merged_iff, readable_merged_iff, readable_iff]

/-- Every departure of a state and a symbol has a target. -/
def Complete (automaton : Automaton) : Prop :=
  ∀ state < automaton.size, ∀ symbol < automaton.alphabetSize,
    automaton.targets state symbol ≠ ∅

theorem overAlphabet_of_readable {word : Word} (readable : automaton.Readable word) :
    automaton.OverAlphabet word :=
  overAlphabet_of_reached_ne_empty (readable_iff_reached_ne_empty.mp readable)

theorem Complete.reached_ne_empty (complete : automaton.Complete) {start : StateSet}
    (nonempty : start ≠ ∅) (within : ∀ state ∈ start, state < automaton.size) {word : Word}
    (overAlphabet : automaton.OverAlphabet word) : automaton.reached start word ≠ ∅ := by
  induction word generalizing start with
  | nil => exact nonempty
  | cons symbol rest inductionHypothesis =>
      obtain ⟨state, belongs⟩ := StateSet.ne_empty_iff.mp nonempty
      obtain ⟨target, moves⟩ := StateSet.ne_empty_iff.mp
        (complete state (within state belongs) symbol (overAlphabet symbol List.mem_cons_self))
      have moved : target ∈ automaton.image start symbol :=
        mem_image.mpr ⟨state, belongs, moves⟩
      apply inductionHypothesis (StateSet.ne_empty_iff.mpr ⟨target, moved⟩)
      · exact fun other reached => lt_size_of_mem_image reached
      · exact fun other later => overAlphabet other (List.mem_cons_of_mem _ later)

/-- A complete automaton reads every word over its alphabet. -/
theorem Complete.readable (complete : automaton.Complete) {word : Word}
    (overAlphabet : automaton.OverAlphabet word) : automaton.Readable word :=
  readable_iff_reached_ne_empty.mpr (complete.reached_ne_empty
    automaton.valid.initial_nonempty automaton.valid.initial_lt overAlphabet)

theorem accepts_eq_iff {word : Word} :
    left.accepts word = right.accepts word ↔ (left.Accepts word ↔ right.Accepts word) := by
  rw [accepts, accepts, Bool.eq_iff_iff, acceptsWith_eq_true_iff, acceptsWith_eq_true_iff]

/-- Words that are not over the common alphabet cannot be read. -/
theorem readable_iff_of_overAlphabet (alphabetSize_eq : left.alphabetSize = right.alphabetSize)
    (readable_iff : ∀ word, left.OverAlphabet word → (left.Readable word ↔ right.Readable word))
    (word : Word) : left.Readable word ↔ right.Readable word := by
  have overIff : left.OverAlphabet word ↔ right.OverAlphabet word := by
    rw [OverAlphabet, OverAlphabet, alphabetSize_eq]
  constructor
  · intro readable
    exact (readable_iff word (overAlphabet_of_readable readable)).mp readable
  · intro readable
    exact (readable_iff word (overIff.mpr (overAlphabet_of_readable readable))).mpr readable

theorem determinize_merged_eq_iff :
    left.merged.determinize = right.merged.determinize ↔
      left.alphabetSize = right.alphabetSize ∧
      (∀ word, left.accepts word = right.accepts word) ∧
      ∀ word, left.OverAlphabet word → (left.Readable word ↔ right.Readable word) := by
  simp only [accepts_eq_iff]
  constructor
  · intro same
    refine ⟨?_, fun word => ?_, fun word _ => ?_⟩
    · rw [← @alphabetSize_merged left, ← @alphabetSize_merged right,
        ← @alphabetSize_determinize left.merged, same, alphabetSize_determinize]
    · rw [← @accepts_merged_iff left, ← @accepts_merged_iff right,
        ← @accepts_determinize_iff left.merged, same, accepts_determinize_iff]
    · rw [← @readable_merged_iff left, ← @readable_merged_iff right,
        ← @readable_determinize_iff left.merged, same, readable_determinize_iff]
  · intro ⟨alphabetSize_eq, accepts_iff, readable_iff⟩
    exact determinize_merged_eq alphabetSize_eq accepts_iff
      (readable_iff_of_overAlphabet alphabetSize_eq readable_iff)

/-- Every automaton has a canonical form, and two automata share it exactly when they have
the same alphabet, accept the same words and read the same words over it. For complete
automata the readable words need no comparison. -/
theorem canonicalForm_eq_iff (left right : Automaton) :
    ∃ leftForm rightForm,
      left.canonicalForm = .ok leftForm ∧ right.canonicalForm = .ok rightForm ∧
      (leftForm = rightForm ↔
        left.alphabetSize = right.alphabetSize ∧
        (∀ word, left.accepts word = right.accepts word) ∧
        ∀ word, left.OverAlphabet word → (left.Readable word ↔ right.Readable word)) ∧
      (left.Complete → right.Complete →
        (leftForm = rightForm ↔
          left.alphabetSize = right.alphabetSize ∧
          ∀ word, left.accepts word = right.accepts word)) := by
  refine ⟨_, _, canonicalForm_eq_ok, canonicalForm_eq_ok, determinize_merged_eq_iff, ?_⟩
  intro leftComplete rightComplete
  rw [determinize_merged_eq_iff]
  constructor
  · intro ⟨alphabetSize_eq, accepts_eq, _⟩
    exact ⟨alphabetSize_eq, accepts_eq⟩
  · intro ⟨alphabetSize_eq, accepts_eq⟩
    refine ⟨alphabetSize_eq, accepts_eq, fun word overAlphabet => ?_⟩
    have rightOver : right.OverAlphabet word := by
      rw [OverAlphabet, ← alphabetSize_eq]
      exact overAlphabet
    exact iff_of_true (leftComplete.readable overAlphabet) (rightComplete.readable rightOver)

/-- Two states count the ones in a word modulo two. -/
def evenOnes : Automaton where
  toDraft := .ofEdges 2 2 (.ofList [0]) (.ofList [0])
    [⟨0, 0, 0⟩, ⟨0, 1, 1⟩, ⟨1, 0, 1⟩, ⟨1, 1, 0⟩]
  valid := Draft.valid_ofEdges (by decide) (by decide) (by decide) (by decide) (by decide)
    (by decide)

/-- The same count with two initial states, a choice, and an unreachable state. -/
def guessedEvenOnes : Automaton where
  toDraft := .ofEdges 5 2 (.ofList [1, 4]) (.ofList [1, 3])
    [⟨0, 0, 1⟩, ⟨0, 1, 1⟩, ⟨1, 0, 3⟩, ⟨1, 1, 2⟩, ⟨2, 0, 2⟩, ⟨2, 1, 3⟩, ⟨3, 0, 1⟩, ⟨3, 0, 3⟩,
      ⟨3, 1, 2⟩, ⟨4, 0, 4⟩, ⟨4, 1, 2⟩]
  valid := Draft.valid_ofEdges (by decide) (by decide) (by decide) (by decide) (by decide)
    (by decide)

/-- Computing two canonical forms decides that two automata accept the same words. -/
theorem evenOnes_accepts_eq :
    evenOnes.Complete ∧ guessedEvenOnes.Complete ∧
      ∀ word, evenOnes.accepts word = guessedEvenOnes.accepts word := by
  have complete : evenOnes.Complete := by unfold Complete; decide
  have guessedComplete : guessedEvenOnes.Complete := by unfold Complete; decide
  have computed : evenOnes.canonicalForm.toOption = guessedEvenOnes.canonicalForm.toOption := by
    decide +kernel
  obtain ⟨form, guessedForm, formEq, guessedFormEq, _, decides⟩ :=
    canonicalForm_eq_iff evenOnes guessedEvenOnes
  rw [formEq, guessedFormEq] at computed
  have same : form = guessedForm := Option.some.inj computed
  exact ⟨complete, guessedComplete, ((decides complete guessedComplete).mp same).2⟩

end Automaton

end Acceptors
