import Acceptors.Proofs.Targets

/-!
Contract: a draft does not remember how it was put together.

Owns: the states and edges that additions name, the draft that holds just what is named, and
the equality of what is built from additions that name the same.
Does not own: when a draft is built, and the violation that refuses it.

An addition names initial states, accepting states or edges. Whatever its form, it does what
adding these three lists would do. A draft without empty target sets is determined by its
members, so only what is named matters, not the order, the grouping or the repetitions.
-/

namespace Acceptors

namespace Draft

/-! ## What is named -/

namespace Addition

def initialStates : Addition → List Nat
  | .initial states => states
  | .accepting _ | .edge _ | .edges _ | .targets _ => []

def acceptingStates : Addition → List Nat
  | .accepting states => states
  | .initial _ | .edge _ | .edges _ | .targets _ => []

def edgeList : Addition → List Edge
  | .initial _ | .accepting _ => []
  | .edge added => [added]
  | .edges added => added
  | .targets entries => entries.flatMap fun entry =>
      entry.2.map fun target => ⟨entry.1.source, entry.1.symbol, target⟩

end Addition

/-- Some addition has the item in the list that is looked at. -/
def Names {Item : Type} (list : Addition → List Item) (additions : List Addition)
    (item : Item) : Prop :=
  ∃ addition ∈ additions, item ∈ list addition

theorem names_append_singleton {Item : Type} {list : Addition → List Item}
    {additions : List Addition} {addition : Addition} {item : Item} :
    Names list (additions ++ [addition]) item ↔
      item ∈ list addition ∨ Names list additions item := by
  simp only [Names, List.mem_append, List.mem_singleton, or_and_right, exists_or,
    exists_eq_left]
  exact or_comm

/-- The same initial states, accepting states and edges are named. -/
structure NameAlike (left right : List Addition) : Prop where
  initial_iff : ∀ state,
    Names Addition.initialStates left state ↔ Names Addition.initialStates right state
  accepting_iff : ∀ state,
    Names Addition.acceptingStates left state ↔ Names Addition.acceptingStates right state
  edge_iff : ∀ edge, Names Addition.edgeList left edge ↔ Names Addition.edgeList right edge

/-! ## One addition -/

variable {draft : Draft} {additions : List Addition} {addition : Addition}

theorem addEdges_append (draft : Draft) (left right : List Edge) :
    draft.addEdges (left ++ right) = (draft.addEdges left).addEdges right :=
  List.foldl_append

theorem add_targets (draft : Draft) (entries : List (Departure × List Nat)) :
    draft.add (.targets entries) = draft.addEdges (Addition.targets entries).edgeList := by
  induction entries generalizing draft with
  | nil => rfl
  | cons head tail inductionHypothesis =>
      calc draft.add (.targets (head :: tail))
          = (draft.addTargets head.1.source head.1.symbol head.2).add (.targets tail) := rfl
        _ = (draft.addTargets head.1.source head.1.symbol head.2).addEdges
              (Addition.targets tail).edgeList := inductionHypothesis _
        _ = draft.addEdges (Addition.targets (head :: tail)).edgeList :=
              (addEdges_append draft _ _).symm

/-- An addition of any form adds the three lists that it names. -/
theorem add_eq (draft : Draft) (addition : Addition) :
    draft.add addition =
      ((draft.addInitial addition.initialStates).addAccepting addition.acceptingStates).addEdges
        addition.edgeList := by
  cases addition with
  | initial states => rfl
  | accepting states => rfl
  | edge edge => rfl
  | edges edges => rfl
  | targets entries => exact add_targets draft entries

/-! ## All additions -/

/-- The draft holds the given counts and just what is named. -/
structure Holds (size alphabetSize : Nat) (additions : List Addition) (draft : Draft) : Prop where
  size_eq : draft.size = size
  alphabetSize_eq : draft.alphabetSize = alphabetSize
  mem_initial_iff : ∀ state,
    state ∈ draft.initial ↔ Names Addition.initialStates additions state
  mem_accepting_iff : ∀ state,
    state ∈ draft.accepting ↔ Names Addition.acceptingStates additions state
  mem_targets_iff : ∀ source symbol target,
    target ∈ draft.targets source symbol ↔
      Names Addition.edgeList additions ⟨source, symbol, target⟩
  pruned : draft.Pruned

section

variable {size alphabetSize : Nat}

theorem holds_blank (size alphabetSize : Nat) :
    Holds size alphabetSize [] (blank size alphabetSize) where
  size_eq := rfl
  alphabetSize_eq := rfl
  mem_initial_iff state := by simp [blank, Names]
  mem_accepting_iff state := by simp [blank, Names]
  mem_targets_iff source symbol target := by simp [blank, targets, Names]
  pruned := pruned_blank size alphabetSize

theorem Holds.add (holds : Holds size alphabetSize additions draft) (addition : Addition) :
    Holds size alphabetSize (additions ++ [addition]) (draft.add addition) := by
  have prunedBefore : ((draft.addInitial addition.initialStates).addAccepting
      addition.acceptingStates).Pruned := holds.pruned
  have sameTargets (source symbol : Nat) : ((draft.addInitial addition.initialStates).addAccepting
      addition.acceptingStates).targets source symbol = draft.targets source symbol := rfl
  rw [add_eq]
  refine ⟨?_, ?_, fun state => ?_, fun state => ?_, fun source symbol target => ?_,
    prunedBefore.addEdges _⟩
  · rw [addEdges_eq]
    exact holds.size_eq
  · rw [addEdges_eq]
    exact holds.alphabetSize_eq
  · rw [addEdges_eq, names_append_singleton, ← holds.mem_initial_iff]
    exact StateSet.mem_insertMany
  · rw [addEdges_eq, names_append_singleton, ← holds.mem_accepting_iff]
    exact StateSet.mem_insertMany
  · rw [mem_targets_addEdges, sameTargets, names_append_singleton, ← holds.mem_targets_iff]

theorem Holds.addAll (holds : Holds size alphabetSize additions draft) (more : List Addition) :
    Holds size alphabetSize (additions ++ more) (draft.addAll more) := by
  induction more generalizing additions draft with
  | nil => exact (List.append_nil additions).symm ▸ holds
  | cons head tail inductionHypothesis =>
      rw [List.append_cons]
      exact inductionHypothesis (holds.add head)

theorem holds_addAll (size alphabetSize : Nat) (additions : List Addition) :
    Holds size alphabetSize additions ((blank size alphabetSize).addAll additions) :=
  (holds_blank size alphabetSize).addAll additions

/-- What is named determines the draft. -/
theorem Holds.unique {left right : List Addition} {leftDraft rightDraft : Draft}
    (same : NameAlike left right) (leftHolds : Holds size alphabetSize left leftDraft)
    (rightHolds : Holds size alphabetSize right rightDraft) : leftDraft = rightDraft := by
  apply ext_targets leftHolds.pruned rightHolds.pruned
  · rw [leftHolds.size_eq, rightHolds.size_eq]
  · rw [leftHolds.alphabetSize_eq, rightHolds.alphabetSize_eq]
  · ext state
    rw [leftHolds.mem_initial_iff, same.initial_iff, rightHolds.mem_initial_iff]
  · ext state
    rw [leftHolds.mem_accepting_iff, same.accepting_iff, rightHolds.mem_accepting_iff]
  · intro source symbol
    ext target
    rw [leftHolds.mem_targets_iff, same.edge_iff, rightHolds.mem_targets_iff]

end

/-! ## Building -/

/-- What is built depends only on what is named, and an automaton that is built has just that. -/
theorem build_addAll_of_nameAlike (size alphabetSize : Nat) {left right : List Addition}
    (same : NameAlike left right) :
    ((blank size alphabetSize).addAll left).build =
        ((blank size alphabetSize).addAll right).build ∧
      ∀ automaton, ((blank size alphabetSize).addAll left).build = .ok automaton →
        automaton.size = size ∧ automaton.alphabetSize = alphabetSize ∧
        (∀ state, state ∈ automaton.initial ↔ Names Addition.initialStates left state) ∧
        (∀ state, state ∈ automaton.accepting ↔ Names Addition.acceptingStates left state) ∧
        ∀ source symbol target, (∃ targets, automaton.successors? source symbol = some targets ∧
          target ∈ targets) ↔ Names Addition.edgeList left ⟨source, symbol, target⟩ := by
  have leftHolds := holds_addAll size alphabetSize left
  have rightHolds := holds_addAll size alphabetSize right
  refine ⟨congrArg build (leftHolds.unique same rightHolds), fun automaton built => ?_⟩
  have kept := (build_eq_ok_iff leftHolds.pruned).mp built
  rw [← kept] at leftHolds
  refine ⟨leftHolds.size_eq, leftHolds.alphabetSize_eq, leftHolds.mem_initial_iff,
    leftHolds.mem_accepting_iff, fun source symbol target => ?_⟩
  rw [← Automaton.mem_targets_iff, leftHolds.mem_targets_iff]

/-- Two states, put together list by list. -/
def plainAdditions : List Addition :=
  [.initial [0], .edges [⟨0, 0, 1⟩, ⟨0, 0, 0⟩], .accepting [1]]

/-- The same in another order, with repetitions and with a departure that has no targets. -/
def regroupedAdditions : List Addition :=
  [.accepting [1, 1], .targets [(⟨0, 0⟩, [0, 1]), (⟨5, 5⟩, [])], .edge ⟨0, 0, 1⟩, .initial [],
    .initial [0]]

theorem nameAlike_regrouped : NameAlike plainAdditions regroupedAdditions where
  initial_iff state := by
    simp [Names, plainAdditions, regroupedAdditions, Addition.initialStates]
  accepting_iff state := by
    simp [Names, plainAdditions, regroupedAdditions, Addition.acceptingStates]
  edge_iff edge := by
    simpa [Names, plainAdditions, regroupedAdditions, Addition.edgeList] using or_comm

theorem build_regrouped :
    NameAlike plainAdditions regroupedAdditions ∧
    ((blank 2 1).addAll plainAdditions).build.toOption.isSome = true ∧
    ((blank 2 1).addAll plainAdditions).build = ((blank 2 1).addAll regroupedAdditions).build ∧
      ∀ automaton, ((blank 2 1).addAll plainAdditions).build = .ok automaton →
        automaton.size = 2 ∧ automaton.alphabetSize = 1 ∧
        (∀ state, state ∈ automaton.initial ↔
          Names Addition.initialStates plainAdditions state) ∧
        (∀ state, state ∈ automaton.accepting ↔
          Names Addition.acceptingStates plainAdditions state) ∧
        ∀ source symbol target, (∃ targets, automaton.successors? source symbol = some targets ∧
          target ∈ targets) ↔ Names Addition.edgeList plainAdditions ⟨source, symbol, target⟩ :=
  ⟨nameAlike_regrouped, by decide +kernel, build_addAll_of_nameAlike 2 1 nameAlike_regrouped⟩

end Draft

end Acceptors
