import Acceptors.Proofs.Reading
import Acceptors.Simulation

/-!
Contract: both simulations decide acceptance.

Owns: the branching search and the frontier simulation against runs.
Does not own: how often the search visits a state.

`acceptsWith_eq_true_iff` is what other modules use: whichever strategy is chosen,
the answer is acceptance as `Automaton.Accepts` states it.
-/

namespace Acceptors

namespace Automaton

variable {automaton : Automaton}

/-! ## The branching search -/

/-- Some run that continues the branch ends in an accepting state. -/
def Promising (automaton : Automaton) (branch : Branch) : Prop :=
  ∃ last ∈ automaton.accepting, automaton.Run branch.state branch.unread last

theorem mem_branches_iff {states : StateSet} {unread : Word} {branch : Branch} :
    branch ∈ states.branches unread ↔ branch.state ∈ states ∧ branch.unread = unread := by
  obtain ⟨state, rest⟩ := branch
  simp only [StateSet.branches, List.mem_map, StateSet.mem_toList, Branch.mk.injEq]
  constructor
  · rintro ⟨member, belongs, rfl, rfl⟩
    exact ⟨belongs, rfl⟩
  · intro ⟨belongs, rfl⟩
    exact ⟨state, belongs, rfl, rfl⟩

theorem exists_promising_branches_iff {states : StateSet} {unread : Word} :
    (∃ branch ∈ states.branches unread, automaton.Promising branch) ↔
      ∃ first ∈ states, ∃ last ∈ automaton.accepting, automaton.Run first unread last := by
  constructor
  · intro ⟨branch, listed, promising⟩
    obtain ⟨belongs, rfl⟩ := mem_branches_iff.mp listed
    exact ⟨branch.state, belongs, promising⟩
  · intro ⟨first, belongs, promising⟩
    exact ⟨⟨first, unread⟩, mem_branches_iff.mpr ⟨belongs, rfl⟩, promising⟩

/-- A branch is promising when it succeeds now or one of its continuations is promising. -/
theorem promising_iff {branch : Branch} :
    automaton.Promising branch ↔ automaton.succeeds branch = true ∨
      ∃ next ∈ automaton.continuations branch, automaton.Promising next := by
  obtain ⟨state, unread⟩ := branch
  cases unread with
  | nil => simp [Promising, succeeds, continuations, run_nil_iff, isAccepting_iff]
  | cons symbol rest =>
      have continued : (∃ next ∈ automaton.continuations ⟨state, symbol :: rest⟩,
          automaton.Promising next) ↔
          ∃ next ∈ automaton.targets state symbol, ∃ last ∈ automaton.accepting,
            automaton.Run next rest last :=
        exists_promising_branches_iff
      rw [continued]
      simp only [Promising, succeeds, List.isEmpty_cons, Bool.false_and, Bool.false_eq_true,
        false_or, run_cons_iff]
      constructor
      · intro ⟨last, accepted, next, moves, run⟩
        exact ⟨next, moves, last, accepted, run⟩
      · intro ⟨next, moves, last, accepted, run⟩
        exact ⟨last, accepted, next, moves, run⟩

/-- The search answers for everything that is pending: what it has dropped is not promising. -/
theorem search_eq_true_iff {pending : List Branch} :
    automaton.search pending = true ↔ ∃ branch ∈ pending, automaton.Promising branch := by
  fun_induction automaton.search pending with
  | case1 => simp
  | case2 branch others succeeds =>
      have promising : automaton.Promising branch := promising_iff.mpr (Or.inl succeeds)
      exact iff_of_true rfl ⟨branch, List.mem_cons_self, promising⟩
  | case3 branch others fails inductionHypothesis =>
      rw [inductionHypothesis]
      simp only [List.mem_append, List.mem_cons, or_and_right, exists_or, exists_eq_left]
      rw [@promising_iff automaton branch]
      simp [fails]

/-! ## The frontier simulation -/

/-- Stopping at an empty frontier does not change the answer. -/
theorem follow_eq_intersects {frontier : StateSet} {word : Word} :
    automaton.follow frontier word =
      (automaton.reached frontier word).intersects automaton.accepting := by
  induction word generalizing frontier with
  | nil => rfl
  | cons symbol rest inductionHypothesis =>
      unfold follow
      split
      · rename_i noneReached
        rw [reached_cons, StateSet.isEmpty_iff.mp noneReached, reached_empty]
        rfl
      · exact inductionHypothesis

/-! ## Both strategies -/

theorem acceptsBranching_eq_true_iff {word : Word} :
    automaton.acceptsBranching word = true ↔ automaton.Accepts word := by
  cases word with
  | nil => exact (@accepts_iff_intersects automaton []).symm
  | cons first rest =>
      have searched : automaton.acceptsBranching (first :: rest) = true ↔
          ∃ branch ∈ automaton.firstBranches first rest, automaton.Promising branch :=
        search_eq_true_iff
      rw [searched, firstBranches, exists_promising_branches_iff, accepts_iff_intersects,
        StateSet.intersects_iff, reached_cons]
      simp only [mem_reached_iff]
      constructor
      · intro ⟨next, moved, last, accepted, run⟩
        exact ⟨last, ⟨next, moved, run⟩, accepted⟩
      · intro ⟨last, ⟨next, moved, run⟩, accepted⟩
        exact ⟨next, moved, last, accepted, run⟩

theorem acceptsFrontier_eq_true_iff {word : Word} :
    automaton.acceptsFrontier word = true ↔ automaton.Accepts word := by
  rw [acceptsFrontier, follow_eq_intersects, accepts_iff_intersects]

theorem acceptsWith_eq_true_iff {strategy : Strategy} {word : Word} :
    automaton.acceptsWith strategy word = true ↔ automaton.Accepts word := by
  cases strategy with
  | branching => exact acceptsBranching_eq_true_iff
  | frontier => exact acceptsFrontier_eq_true_iff

/-- Automata that accept the same words answer alike, whatever their strategies. -/
theorem acceptsWith_congr {other : Automaton} {strategy otherStrategy : Strategy} {word : Word}
    (same : automaton.Accepts word ↔ other.Accepts word) :
    automaton.acceptsWith strategy word = other.acceptsWith otherStrategy word := by
  apply Bool.eq_iff_iff.mpr
  rw [acceptsWith_eq_true_iff, acceptsWith_eq_true_iff]
  exact same

/-- The strategies agree, and both find an accepting run exactly when there is one. -/
theorem acceptsWith_iff_exists_states (automaton : Automaton) (word : Word) :
    automaton.acceptsWith .branching word = automaton.acceptsWith .frontier word ∧
      ∀ strategy, automaton.acceptsWith strategy word = true ↔
        ∃ states : Nat → Nat, states 0 ∈ automaton.initial ∧
          (∀ (index : Nat) (inside : index < word.length), ∃ targets,
            automaton.successors? (states index) word[index] = some targets ∧
              states (index + 1) ∈ targets) ∧
          states word.length ∈ automaton.accepting := by
  refine ⟨acceptsWith_congr Iff.rfl, fun strategy => ?_⟩
  rw [acceptsWith_eq_true_iff]
  simp only [Accepts, run_iff_exists_states, ← mem_targets_iff]
  constructor
  · rintro ⟨_, isInitial, _, accepted, states, rfl, moving, rfl⟩
    exact ⟨states, isInitial, moving, accepted⟩
  · rintro ⟨states, isInitial, moving, accepted⟩
    exact ⟨states 0, isInitial, states word.length, accepted, states, rfl, moving, rfl⟩

end Automaton

end Acceptors
