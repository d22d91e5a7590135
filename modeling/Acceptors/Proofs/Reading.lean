import Acceptors.Proofs.Targets
import Acceptors.Run

/-!
Contract: what a word does to the states of an automaton.

Owns: the sets of states that words reach, acceptance and readability in terms of
these sets, and runs as sequences of states.
Does not own: procedures that decide acceptance, and deterministic automata.
-/

namespace Acceptors

namespace Automaton

variable {automaton : Automaton}

theorem isAccepting_iff {state : Nat} :
    automaton.isAccepting state = true ↔ state ∈ automaton.accepting :=
  StateSet.contains_iff

/-- A symbol outside the alphabet ends every run. -/
theorem overAlphabet_of_run {first last : Nat} {word : Word}
    (run : automaton.Run first word last) : automaton.OverAlphabet word := by
  induction run with
  | done state => exact fun _ belongs => absurd belongs List.not_mem_nil
  | step moves run inductionHypothesis =>
      intro symbol belongs
      rcases List.mem_cons.mp belongs with same | later
      · exact same ▸ symbol_lt_of_mem_targets moves
      · exact inductionHypothesis symbol later

/-! ## Sets of reached states -/

@[simp] theorem reached_cons {start : StateSet} {symbol : Nat} {rest : Word} :
    automaton.reached start (symbol :: rest) =
      automaton.reached (automaton.image start symbol) rest := rfl

@[simp] theorem image_empty {symbol : Nat} : automaton.image ∅ symbol = ∅ := rfl

@[simp] theorem reached_empty {word : Word} : automaton.reached ∅ word = ∅ := by
  induction word with
  | nil => rfl
  | cons symbol rest inductionHypothesis => exact inductionHypothesis

theorem reached_append {start : StateSet} {first second : Word} :
    automaton.reached start (first ++ second) =
      automaton.reached (automaton.reached start first) second :=
  List.foldl_append

theorem image_eq_empty_of_symbol {start : StateSet} {symbol : Nat}
    (outside : automaton.alphabetSize ≤ symbol) : automaton.image start symbol = ∅ := by
  ext state
  simp only [StateSet.not_mem_empty, iff_false, mem_image, not_exists, not_and]
  intro source _ moves
  have inside := symbol_lt_of_mem_targets moves
  omega

theorem overAlphabet_of_reached_ne_empty {start : StateSet} {word : Word}
    (nonempty : automaton.reached start word ≠ ∅) : automaton.OverAlphabet word := by
  obtain ⟨last, belongs⟩ := StateSet.ne_empty_iff.mp nonempty
  obtain ⟨first, _, run⟩ := mem_reached_iff.mp belongs
  exact overAlphabet_of_run run

/-- A word is accepted when the states it reaches include an accepting one. -/
theorem accepts_iff_intersects {word : Word} :
    automaton.Accepts word ↔
      (automaton.reached automaton.initial word).intersects automaton.accepting = true := by
  rw [StateSet.intersects_iff]
  simp only [mem_reached_iff, Accepts]
  constructor
  · intro ⟨first, isInitial, last, accepted, run⟩
    exact ⟨last, ⟨first, isInitial, run⟩, accepted⟩
  · intro ⟨last, ⟨first, isInitial, run⟩, accepted⟩
    exact ⟨first, isInitial, last, accepted, run⟩

theorem readable_iff_reached_ne_empty {word : Word} :
    automaton.Readable word ↔ automaton.reached automaton.initial word ≠ ∅ := by
  rw [StateSet.ne_empty_iff]
  simp only [mem_reached_iff, Readable]
  constructor
  · intro ⟨first, isInitial, last, run⟩
    exact ⟨last, first, isInitial, run⟩
  · intro ⟨last, first, isInitial, run⟩
    exact ⟨first, isInitial, last, run⟩

/-! ## Runs as sequences of states -/

/-- A run visits one state more than the word has symbols. -/
theorem run_iff_exists_states {first last : Nat} {word : Word} :
    automaton.Run first word last ↔
      ∃ states : Nat → Nat, states 0 = first ∧
        (∀ (index : Nat) (inside : index < word.length),
          states (index + 1) ∈ automaton.targets (states index) word[index]) ∧
        states word.length = last := by
  induction word generalizing first with
  | nil =>
      rw [run_nil_iff]
      constructor
      · rintro rfl
        exact ⟨fun _ => first, rfl, fun _ inside => absurd inside (Nat.not_lt_zero _), rfl⟩
      · rintro ⟨states, rfl, _, rfl⟩
        rfl
  | cons symbol rest inductionHypothesis =>
      rw [run_cons_iff]
      constructor
      · intro ⟨next, moves, run⟩
        obtain ⟨states, rfl, moving, rfl⟩ := inductionHypothesis.mp run
        refine ⟨fun index => index.casesOn first states, rfl, ?_, rfl⟩
        intro index inside
        cases index with
        | zero => exact moves
        | succ index => exact moving index (Nat.lt_of_succ_lt_succ inside)
      · rintro ⟨states, rfl, moving, rfl⟩
        refine ⟨states 1, moving 0 (Nat.zero_lt_succ _), inductionHypothesis.mpr ?_⟩
        exact ⟨fun index => states (index + 1), rfl,
          fun index inside => moving (index + 1) (Nat.succ_lt_succ inside), rfl⟩

end Automaton

end Acceptors
