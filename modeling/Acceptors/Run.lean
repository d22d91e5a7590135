import Acceptors.Automaton

/-!
Contract: what it means for an automaton to read and to accept a word.

Owns: runs as a relation between states, acceptance, readable words and the
set of states reached by a word, each stated without any search.
Does not own: the procedures that decide acceptance.
-/

namespace Acceptors

abbrev Word := List Nat

namespace Automaton

/-- There is a run on a word from one state to another. -/
inductive Run (automaton : Automaton) : Nat → Word → Nat → Prop where
  | done (state : Nat) : Run automaton state [] state
  | step {source symbol next last : Nat} {rest : Word}
      (moves : next ∈ automaton.targets source symbol) (run : Run automaton next rest last) :
      Run automaton source (symbol :: rest) last

/-- Some run on the word leads from an initial to an accepting state. -/
def Accepts (automaton : Automaton) (word : Word) : Prop :=
  ∃ first ∈ automaton.initial, ∃ last ∈ automaton.accepting, automaton.Run first word last

/-- Some run on the word starts in an initial state, wherever it ends. -/
def Readable (automaton : Automaton) (word : Word) : Prop :=
  ∃ first ∈ automaton.initial, ∃ last, automaton.Run first word last

/-- The word is made of symbols of the alphabet. -/
def OverAlphabet (automaton : Automaton) (word : Word) : Prop :=
  ∀ symbol ∈ word, symbol < automaton.alphabetSize

/-- The states that a set reaches by reading a word. -/
def reached (automaton : Automaton) (start : StateSet) (word : Word) : StateSet :=
  word.foldl automaton.image start

theorem run_nil_iff {automaton : Automaton} {first last : Nat} :
    automaton.Run first [] last ↔ first = last := by
  constructor
  · intro run
    cases run
    rfl
  · rintro rfl
    exact .done first

theorem run_cons_iff {automaton : Automaton} {source symbol last : Nat} {rest : Word} :
    automaton.Run source (symbol :: rest) last ↔
      ∃ next ∈ automaton.targets source symbol, automaton.Run next rest last := by
  constructor
  · intro run
    cases run with
    | step moves run => exact ⟨_, moves, run⟩
  · rintro ⟨next, moves, run⟩
    exact .step moves run

/-- The reached set holds the ends of the runs. -/
theorem mem_reached_iff {automaton : Automaton} {start : StateSet} {word : Word} {last : Nat} :
    last ∈ automaton.reached start word ↔
      ∃ first ∈ start, automaton.Run first word last := by
  induction word generalizing start with
  | nil => simp [reached, run_nil_iff]
  | cons symbol rest inductionHypothesis =>
      change last ∈ automaton.reached (automaton.image start symbol) rest ↔ _
      simp only [inductionHypothesis, mem_image, run_cons_iff]
      constructor
      · rintro ⟨next, ⟨first, belongs, moves⟩, run⟩
        exact ⟨first, belongs, next, moves, run⟩
      · rintro ⟨first, belongs, next, moves, run⟩
        exact ⟨next, ⟨first, belongs, moves⟩, run⟩

end Automaton

end Acceptors
