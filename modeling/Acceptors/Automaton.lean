import Acceptors.Draft

/-!
Contract: finite automata and the conditions that make a draft one.

Owns: the condition `Draft.Valid`, the reasons for refusing a draft, `Draft.build`,
the type `Automaton`, its queries and the test for determinism.
Does not own: runs on words, transformations and texts of whole automata.

`Draft.violation?_eq_none_iff` ties the check to the condition: a draft without
empty target sets has no violation exactly when it is valid.
-/

namespace Acceptors

/-- A reason why a draft describes no automaton. -/
inductive Violation where
  | noStates
  | emptyAlphabet
  | noInitialStates
  | stateOutOfRange (state size : Nat)
  | symbolOutOfRange (symbol size : Nat)
deriving DecidableEq, Repr

namespace Violation

def message : Violation → String
  | noStates => "automaton must have at least one state"
  | emptyAlphabet => "alphabet must contain at least one symbol"
  | noInitialStates => "automaton has no initial state"
  | stateOutOfRange state size =>
      s!"state {state} is out of range, automaton has {size} states"
  | symbolOutOfRange symbol size =>
      s!"symbol {symbol} is out of range, alphabet has {size} symbols"

end Violation

def stateViolation? (size state : Nat) : Option Violation :=
  if state < size then none else some (.stateOutOfRange state size)

def symbolViolation? (size symbol : Nat) : Option Violation :=
  if symbol < size then none else some (.symbolOutOfRange symbol size)

@[simp] theorem stateViolation?_eq_none_iff {size state : Nat} :
    stateViolation? size state = none ↔ state < size := by
  simp [stateViolation?]

@[simp] theorem symbolViolation?_eq_none_iff {size symbol : Nat} :
    symbolViolation? size symbol = none ↔ symbol < size := by
  simp [symbolViolation?]

namespace Draft

/-- A draft describes an automaton when there is something to read and to start from,
every index is in range and every listed departure has a target. -/
structure Valid (draft : Draft) : Prop where
  size_pos : 0 < draft.size
  alphabetSize_pos : 0 < draft.alphabetSize
  initial_nonempty : draft.initial ≠ ∅
  initial_lt : ∀ state ∈ draft.initial, state < draft.size
  accepting_lt : ∀ state ∈ draft.accepting, state < draft.size
  source_lt : ∀ (departure : Departure) (targets : StateSet),
    draft.transitions[departure]? = some targets → departure.source < draft.size
  symbol_lt : ∀ (departure : Departure) (targets : StateSet),
    draft.transitions[departure]? = some targets → departure.symbol < draft.alphabetSize
  pruned : draft.Pruned
  target_lt : ∀ (departure : Departure) (targets : StateSet),
    draft.transitions[departure]? = some targets → ∀ state ∈ targets, state < draft.size

/-- The first index of a listed departure that is out of range: source, symbol, targets. -/
def entryViolation? (draft : Draft) (entry : Departure × StateSet) : Option Violation :=
  (stateViolation? draft.size entry.1.source).or <|
    (symbolViolation? draft.alphabetSize entry.1.symbol).or <|
      entry.2.toList.findSome? (stateViolation? draft.size)

/-- The first violation of a draft. The counts and the initial set come first, then the
initial states, the accepting states and the departures, each in ascending order. -/
def violation? (draft : Draft) : Option Violation :=
  if draft.size = 0 then some .noStates
  else if draft.alphabetSize = 0 then some .emptyAlphabet
  else if draft.initial.isEmpty then some .noInitialStates
  else
    (draft.initial.toList.findSome? (stateViolation? draft.size)).or <|
      (draft.accepting.toList.findSome? (stateViolation? draft.size)).or <|
        draft.transitions.toList.findSome? draft.entryViolation?

theorem entryViolation?_eq_none_iff {draft : Draft} {entry : Departure × StateSet} :
    draft.entryViolation? entry = none ↔
      entry.1.source < draft.size ∧ entry.1.symbol < draft.alphabetSize ∧
        ∀ state ∈ entry.2, state < draft.size := by
  simp [entryViolation?, Option.or_eq_none_iff, StateSet.mem_toList]

/-- The check refuses nothing that is valid and lets nothing else through. -/
theorem violation?_eq_none_iff {draft : Draft} (pruned : draft.Pruned) :
    draft.violation? = none ↔ draft.Valid := by
  have entries : draft.transitions.toList.findSome? draft.entryViolation? = none ↔
      ∀ (departure : Departure) (targets : StateSet),
        draft.transitions[departure]? = some targets →
          departure.source < draft.size ∧ departure.symbol < draft.alphabetSize ∧
            ∀ state ∈ targets, state < draft.size := by
    simp only [List.findSome?_eq_none_iff, entryViolation?_eq_none_iff, Prod.forall,
      Std.ExtTreeMap.mem_toList_iff_getElem?_eq_some]
  have states (set : StateSet) : set.toList.findSome? (stateViolation? draft.size) = none ↔
      ∀ state ∈ set, state < draft.size := by
    simp [StateSet.mem_toList]
  unfold violation?
  split
  · rename_i noState
    exact ⟨fun impossible => (by cases impossible),
      fun valid => absurd noState (Nat.ne_of_gt valid.size_pos)⟩
  · rename_i someState
    split
    · rename_i noSymbol
      exact ⟨fun impossible => (by cases impossible),
        fun valid => absurd noSymbol (Nat.ne_of_gt valid.alphabetSize_pos)⟩
    · rename_i someSymbol
      split
      · rename_i noInitial
        exact ⟨fun impossible => (by cases impossible),
          fun valid => absurd (StateSet.isEmpty_iff.mp noInitial) valid.initial_nonempty⟩
      · rename_i someInitial
        rw [Option.or_eq_none_iff, Option.or_eq_none_iff, states, states, entries]
        constructor
        · rintro ⟨initialBelow, acceptingBelow, entriesBelow⟩
          exact {
            size_pos := Nat.pos_of_ne_zero someState
            alphabetSize_pos := Nat.pos_of_ne_zero someSymbol
            initial_nonempty := fun none => someInitial (StateSet.isEmpty_iff.mpr none)
            initial_lt := initialBelow
            accepting_lt := acceptingBelow
            source_lt := fun departure targets listed =>
              (entriesBelow departure targets listed).1
            symbol_lt := fun departure targets listed =>
              (entriesBelow departure targets listed).2.1
            pruned := pruned
            target_lt := fun departure targets listed =>
              (entriesBelow departure targets listed).2.2 }
        · intro valid
          exact ⟨valid.initial_lt, valid.accepting_lt, fun departure targets listed =>
            ⟨valid.source_lt departure targets listed, valid.symbol_lt departure targets listed,
              valid.target_lt departure targets listed⟩⟩

/-- A draft made of edges is valid when its counts, its sets and its edges are in range. -/
theorem valid_ofEdges {size alphabetSize : Nat} {initial accepting : StateSet}
    {edges : List Edge} (size_pos : 0 < size) (alphabetSize_pos : 0 < alphabetSize)
    (initial_nonempty : initial ≠ ∅) (initial_lt : ∀ state ∈ initial, state < size)
    (accepting_lt : ∀ state ∈ accepting, state < size)
    (edge_lt : ∀ edge ∈ edges,
      edge.source < size ∧ edge.symbol < alphabetSize ∧ edge.target < size) :
    (ofEdges size alphabetSize initial accepting edges).Valid := by
  have pruned := pruned_ofEdges size alphabetSize initial accepting edges
  have bounds (departure : Departure) (targets : StateSet)
      (listed : (ofEdges size alphabetSize initial accepting edges).transitions[departure]? =
        some targets) :
      ∀ target ∈ targets, departure.source < size ∧ departure.symbol < alphabetSize ∧
        target < size := by
    intro target belongs
    exact edge_lt ⟨departure.source, departure.symbol, target⟩
      (mem_targets_ofEdges.mp (mem_targets_of_transitions listed ▸ belongs))
  have someTarget (departure : Departure) (targets : StateSet)
      (listed : (ofEdges size alphabetSize initial accepting edges).transitions[departure]? =
        some targets) : ∃ target, target ∈ targets :=
    StateSet.ne_empty_iff.mp (pruned departure targets listed)
  exact {
    size_pos := by simpa
    alphabetSize_pos := by simpa
    initial_nonempty := by simpa
    initial_lt := by simpa
    accepting_lt := by simpa
    pruned := pruned
    source_lt := fun departure targets listed => by
      obtain ⟨target, belongs⟩ := someTarget departure targets listed
      simpa using (bounds departure targets listed target belongs).1
    symbol_lt := fun departure targets listed => by
      obtain ⟨target, belongs⟩ := someTarget departure targets listed
      simpa using (bounds departure targets listed target belongs).2.1
    target_lt := fun departure targets listed target belongs => by
      simpa using (bounds departure targets listed target belongs).2.2 }

end Draft

structure Automaton extends Draft where
  valid : toDraft.Valid
deriving DecidableEq

/-- The automaton that a draft describes, once departures without targets are dropped. -/
def Draft.build (draft : Draft) : Except Violation Automaton :=
  match check : draft.prune.violation? with
  | some violation => .error violation
  | none => .ok ⟨draft.prune, (Draft.violation?_eq_none_iff draft.pruned_prune).mp check⟩

/-- A departure that has several targets, all of them listed. -/
structure Ambiguity where
  state : Nat
  symbol : Nat
  targets : List Nat
deriving DecidableEq, Repr

def Ambiguity.message (ambiguity : Ambiguity) : String :=
  let targets := Text.bracketed ambiguity.targets
  s!"automaton is not deterministic, state {ambiguity.state} has targets {targets} " ++
    s!"on symbol {ambiguity.symbol}"

namespace Automaton

theorem ext_draft {left right : Automaton} (same : left.toDraft = right.toDraft) :
    left = right := by
  cases left
  cases right
  simp_all

/-! ## Queries -/

def symbols (automaton : Automaton) : List Nat := List.range automaton.alphabetSize

def states (automaton : Automaton) : List Nat := List.range automaton.size

/-- Whether a state is accepting. No state out of range is. -/
def isAccepting (automaton : Automaton) (state : Nat) : Bool :=
  automaton.accepting.contains state

/-- The targets of a departure that has any. -/
def successors? (automaton : Automaton) (source symbol : Nat) : Option StateSet :=
  automaton.transitions[(⟨source, symbol⟩ : Departure)]?

/-- The target of a departure that has exactly one. -/
def successor? (automaton : Automaton) (source symbol : Nat) : Option Nat :=
  (automaton.successors? source symbol).bind StateSet.single?

def entries (automaton : Automaton) : List (Departure × StateSet) :=
  automaton.transitions.toList

/-- The number of departures that have a target. -/
def transitionCount (automaton : Automaton) : Nat := automaton.transitions.size

def ambiguity? (automaton : Automaton) : Option Ambiguity :=
  (automaton.entries.find? fun entry => entry.2.size != 1).map fun entry =>
    ⟨entry.1.source, entry.1.symbol, entry.2.toList⟩

/-- Whether every departure has at most one target. -/
def isDeterministic (automaton : Automaton) : Bool := automaton.ambiguity?.isNone

/-- Lets a deterministic automaton pass and names the first ambiguity of any other. -/
def checkDeterministic (automaton : Automaton) : Except Ambiguity Unit :=
  match automaton.ambiguity? with
  | some ambiguity => .error ambiguity
  | none => .ok ()

/-- The states that are reached from some state of a set on a symbol. -/
def image (automaton : Automaton) (start : StateSet) (symbol : Nat) : StateSet :=
  start.toList.foldl (fun reached state => reached ∪ automaton.targets state symbol) ∅

/-! ## Membership laws -/

theorem mem_targets_iff {automaton : Automaton} {source symbol state : Nat} :
    state ∈ automaton.targets source symbol ↔
      ∃ targets, automaton.successors? source symbol = some targets ∧ state ∈ targets := by
  unfold Draft.targets successors?
  cases automaton.transitions[(⟨source, symbol⟩ : Departure)]? <;> simp

theorem lt_size_of_mem_targets {automaton : Automaton} {source symbol state : Nat}
    (belongs : state ∈ automaton.targets source symbol) : state < automaton.size := by
  obtain ⟨targets, listed, inside⟩ := mem_targets_iff.mp belongs
  exact automaton.valid.target_lt _ _ listed state inside

theorem mem_image {automaton : Automaton} {start : StateSet} {symbol state : Nat} :
    state ∈ automaton.image start symbol ↔
      ∃ source ∈ start, state ∈ automaton.targets source symbol := by
  have collected (sources : List Nat) (reached : StateSet) :
      state ∈ sources.foldl (fun reached source => reached ∪ automaton.targets source symbol)
        reached ↔
          state ∈ reached ∨ ∃ source ∈ sources, state ∈ automaton.targets source symbol := by
    induction sources generalizing reached with
    | nil => simp
    | cons head tail inductionHypothesis =>
        rw [List.foldl_cons, inductionHypothesis]
        simp [or_assoc]
  simpa [image, StateSet.mem_toList] using collected start.toList ∅

theorem lt_size_of_mem_image {automaton : Automaton} {start : StateSet} {symbol state : Nat}
    (belongs : state ∈ automaton.image start symbol) : state < automaton.size := by
  obtain ⟨source, _, reached⟩ := mem_image.mp belongs
  exact lt_size_of_mem_targets reached

end Automaton

end Acceptors
