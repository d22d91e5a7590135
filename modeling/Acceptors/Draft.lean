import Std.Data.ExtTreeMap
import Acceptors.Departure
import Acceptors.StateSet

/-!
Contract: the description of an automaton while it is being put together.

Owns: the type `Draft`, the operations that add to a draft, the pruning of
empty target sets, and the text that shows a draft.
Does not own: the conditions under which a draft describes an automaton. Until
they are checked, any index may occur anywhere.
-/

namespace Acceptors

/-- The target sets of the departures that have any. -/
abbrev Transitions := Std.ExtTreeMap Departure StateSet

/-- One step of an automaton: a source, the symbol that is read, and a target. -/
structure Edge where
  source : Nat
  symbol : Nat
  target : Nat
deriving DecidableEq, Repr

/-- The data of an automaton, with nothing promised about it. -/
structure Draft where
  size : Nat
  alphabetSize : Nat
  initial : StateSet
  accepting : StateSet
  transitions : Transitions
deriving DecidableEq

namespace Draft

/-- A draft with the given numbers of states and symbols and nothing else. -/
def blank (size alphabetSize : Nat) : Draft := ⟨size, alphabetSize, ∅, ∅, ∅⟩

/-- The states that a state reaches on a symbol. -/
def targets (draft : Draft) (source symbol : Nat) : StateSet :=
  draft.transitions[(⟨source, symbol⟩ : Departure)]?.getD ∅

/-! ## Additions -/

def addInitial (draft : Draft) (states : List Nat) : Draft :=
  { draft with initial := draft.initial.insertMany states }

def addAccepting (draft : Draft) (states : List Nat) : Draft :=
  { draft with accepting := draft.accepting.insertMany states }

def addTransition (draft : Draft) (source symbol target : Nat) : Draft :=
  { draft with
    transitions := draft.transitions.alter ⟨source, symbol⟩ fun known =>
      some ((known.getD ∅).insert target) }

def addEdges (draft : Draft) (edges : List Edge) : Draft :=
  edges.foldl (fun current edge => current.addTransition edge.source edge.symbol edge.target) draft

/-- The draft with the given edges and nothing else. -/
def ofEdges (size alphabetSize : Nat) (initial accepting : StateSet) (edges : List Edge) : Draft :=
  (⟨size, alphabetSize, initial, accepting, ∅⟩ : Draft).addEdges edges

/-- Adds several targets to a departure, nothing if there are none. -/
def addTargets (draft : Draft) (source symbol : Nat) (targets : List Nat) : Draft :=
  draft.addEdges (targets.map fun target => ⟨source, symbol, target⟩)

inductive Addition where
  | initial (states : List Nat)
  | accepting (states : List Nat)
  | edge (edge : Edge)
  | edges (edges : List Edge)
  | targets (entries : List (Departure × List Nat))
deriving DecidableEq, Repr

def add (draft : Draft) : Addition → Draft
  | .initial states => draft.addInitial states
  | .accepting states => draft.addAccepting states
  | .edge edge => draft.addTransition edge.source edge.symbol edge.target
  | .edges edges => draft.addEdges edges
  | .targets entries =>
      entries.foldl (fun current entry =>
        current.addTargets entry.1.source entry.1.symbol entry.2) draft

def addAll (draft : Draft) (additions : List Addition) : Draft := additions.foldl add draft

/-- Replaces the targets of a departure, also by the empty set. -/
def setTargets (draft : Draft) (source symbol : Nat) (targets : StateSet) : Draft :=
  { draft with transitions := draft.transitions.insert ⟨source, symbol⟩ targets }

/-- Drops the departures whose target set is empty. -/
def prune (draft : Draft) : Draft :=
  { draft with transitions := draft.transitions.filter fun _ targets => !targets.isEmpty }

/-! ## The effect of an addition on the targets -/

theorem mem_targets_addTransition {draft : Draft} {source symbol target : Nat}
    {otherSource otherSymbol other : Nat} :
    other ∈ (draft.addTransition source symbol target).targets otherSource otherSymbol ↔
      (source = otherSource ∧ symbol = otherSymbol ∧ target = other) ∨
        other ∈ draft.targets otherSource otherSymbol := by
  unfold targets addTransition
  simp only [Std.ExtTreeMap.getElem?_alter, Std.LawfulEqCmp.compare_eq_iff_eq, Departure.mk.injEq]
  split
  · rename_i same
    obtain ⟨rfl, rfl⟩ := same
    simp [eq_comm]
  · rename_i different
    constructor
    · exact Or.inr
    · rintro (⟨sources, symbols, _⟩ | belongs)
      · exact absurd ⟨sources, symbols⟩ different
      · exact belongs

theorem mem_targets_addEdges {draft : Draft} {edges : List Edge} {source symbol target : Nat} :
    target ∈ (draft.addEdges edges).targets source symbol ↔
      ⟨source, symbol, target⟩ ∈ edges ∨ target ∈ draft.targets source symbol := by
  unfold addEdges
  induction edges generalizing draft with
  | nil => simp
  | cons head tail inductionHypothesis =>
      rw [List.foldl_cons, inductionHypothesis, mem_targets_addTransition, List.mem_cons]
      obtain ⟨headSource, headSymbol, headTarget⟩ := head
      constructor
      · rintro (listed | ⟨rfl, rfl, rfl⟩ | belongs)
        · exact Or.inl (Or.inr listed)
        · exact Or.inl (Or.inl rfl)
        · exact Or.inr belongs
      · rintro ((same | listed) | belongs)
        · cases same
          exact Or.inr (Or.inl ⟨rfl, rfl, rfl⟩)
        · exact Or.inl listed
        · exact Or.inr (Or.inr belongs)

theorem addEdges_eq (draft : Draft) (edges : List Edge) :
    draft.addEdges edges = { draft with transitions := (draft.addEdges edges).transitions } := by
  unfold addEdges
  induction edges generalizing draft with
  | nil => rfl
  | cons head tail inductionHypothesis =>
      rw [List.foldl_cons, inductionHypothesis]
      rfl

@[simp] theorem size_ofEdges {size alphabetSize : Nat} {initial accepting : StateSet}
    {edges : List Edge} : (ofEdges size alphabetSize initial accepting edges).size = size := by
  rw [ofEdges, addEdges_eq]

@[simp] theorem alphabetSize_ofEdges {size alphabetSize : Nat} {initial accepting : StateSet}
    {edges : List Edge} :
    (ofEdges size alphabetSize initial accepting edges).alphabetSize = alphabetSize := by
  rw [ofEdges, addEdges_eq]

@[simp] theorem initial_ofEdges {size alphabetSize : Nat} {initial accepting : StateSet}
    {edges : List Edge} :
    (ofEdges size alphabetSize initial accepting edges).initial = initial := by
  rw [ofEdges, addEdges_eq]

@[simp] theorem accepting_ofEdges {size alphabetSize : Nat} {initial accepting : StateSet}
    {edges : List Edge} :
    (ofEdges size alphabetSize initial accepting edges).accepting = accepting := by
  rw [ofEdges, addEdges_eq]

@[simp] theorem mem_targets_ofEdges {size alphabetSize : Nat} {initial accepting : StateSet}
    {edges : List Edge} {source symbol target : Nat} :
    target ∈ (ofEdges size alphabetSize initial accepting edges).targets source symbol ↔
      ⟨source, symbol, target⟩ ∈ edges := by
  rw [ofEdges, mem_targets_addEdges]
  simp [targets]

theorem mem_targets_of_transitions {draft : Draft} {departure : Departure} {targets : StateSet}
    (listed : draft.transitions[departure]? = some targets) :
    draft.targets departure.source departure.symbol = targets := by
  simp [Draft.targets, listed]

/-! ## Pruned drafts -/

/-- Every listed departure has a target. -/
def Pruned (draft : Draft) : Prop :=
  ∀ (departure : Departure) (targets : StateSet),
    draft.transitions[departure]? = some targets → targets ≠ ∅

theorem pruned_blank (size alphabetSize : Nat) : (blank size alphabetSize).Pruned := by
  intro departure targets listed
  simp [blank] at listed

theorem Pruned.addTransition {draft : Draft} (pruned : draft.Pruned)
    (source symbol target : Nat) : (draft.addTransition source symbol target).Pruned := by
  intro departure targets listed
  simp only [Draft.addTransition, Std.ExtTreeMap.getElem?_alter] at listed
  split at listed
  · cases listed
    exact StateSet.ne_empty_iff.mpr ⟨target, by simp⟩
  · exact pruned departure targets listed

theorem Pruned.addEdges {draft : Draft} (pruned : draft.Pruned) (edges : List Edge) :
    (draft.addEdges edges).Pruned := by
  unfold Draft.addEdges
  induction edges generalizing draft with
  | nil => exact pruned
  | cons head tail inductionHypothesis =>
      exact inductionHypothesis (pruned.addTransition _ _ _)

/-- After pruning, a departure is listed exactly when it was listed with a target. -/
theorem transitions_prune_eq_some_iff {draft : Draft} {departure : Departure}
    {targets : StateSet} :
    draft.prune.transitions[departure]? = some targets ↔
      draft.transitions[departure]? = some targets ∧ targets ≠ ∅ := by
  simp only [prune, Std.ExtTreeMap.getElem?_filter', Option.filter_eq_some_iff]
  simp [← StateSet.isEmpty_iff]

theorem pruned_prune (draft : Draft) : draft.prune.Pruned :=
  fun _ _ listed => (transitions_prune_eq_some_iff.mp listed).2

theorem pruned_ofEdges (size alphabetSize : Nat) (initial accepting : StateSet)
    (edges : List Edge) : (ofEdges size alphabetSize initial accepting edges).Pruned :=
  Pruned.addEdges (by intro departure targets listed; simp at listed) edges

/-! ## Text -/

def renderEntry (departure : Departure) (targets : StateSet) : String :=
  s!"({departure.source}, {departure.symbol}): {targets.render}"

def render (draft : Draft) : String :=
  let entries := draft.transitions.toList.map fun entry => renderEntry entry.1 entry.2
  Text.listing "AutomatonBuilder \x7b " " \x7d" [
    s!"size: {draft.size}",
    s!"alphabet_size: {draft.alphabetSize}",
    s!"initial: {draft.initial.render}",
    s!"accepting: {draft.accepting.render}",
    "transitions: " ++ Text.listing "\x7b" "\x7d" entries]

end Draft

end Acceptors
