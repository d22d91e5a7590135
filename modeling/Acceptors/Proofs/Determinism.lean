import Acceptors.Proofs.Reading

/-!
Contract: automata whose departures have at most one target.

Owns: what the test for determinism decides, the state in which a deterministic
automaton ends a word, and the outcome of a word.
Does not own: the operations that produce deterministic automata.

The outcome of a word is nothing where its run dies, and otherwise whether the run
ends in an accepting state. Two states with the same outcomes accept the same words
and stop at the same places.
-/

namespace Acceptors

theorem StateSet.size_eq_one_iff {set : StateSet} :
    set.size = 1 ↔ ∃ state, set = StateSet.singleton state := by
  obtain ⟨members, ascending⟩ := set
  simp [StateSet.size, StateSet.singleton, List.length_eq_one_iff]

namespace Automaton

variable {automaton : Automaton}

def Unambiguous (automaton : Automaton) : Prop :=
  ∀ (source symbol left right : Nat), left ∈ automaton.targets source symbol →
    right ∈ automaton.targets source symbol → left = right

theorem Unambiguous.eq_singleton (unambiguous : automaton.Unambiguous)
    {source symbol target : Nat} {targets : StateSet}
    (listed : automaton.successors? source symbol = some targets) (belongs : target ∈ targets) :
    targets = StateSet.singleton target := by
  ext other
  rw [StateSet.mem_singleton]
  constructor
  · intro another
    exact unambiguous source symbol other target (mem_targets_iff.mpr ⟨targets, listed, another⟩)
      (mem_targets_iff.mpr ⟨targets, listed, belongs⟩)
  · intro same
    exact same ▸ belongs

/-! ## The test -/

theorem ambiguity?_eq_none_iff :
    automaton.ambiguity? = none ↔
      ∀ (departure : Departure) (targets : StateSet),
        automaton.transitions[departure]? = some targets → targets.size = 1 := by
  simp only [ambiguity?, entries, Option.map_eq_none_iff, List.find?_eq_none, Prod.forall,
    Std.ExtTreeMap.mem_toList_iff_getElem?_eq_some, bne_iff_ne, ne_eq, Decidable.not_not]

theorem unambiguous_iff :
    automaton.Unambiguous ↔ automaton.ambiguity? = none := by
  rw [ambiguity?_eq_none_iff]
  constructor
  · intro unambiguous departure targets listed
    have nonempty := automaton.valid.pruned departure targets listed
    obtain ⟨target, belongs⟩ := StateSet.ne_empty_iff.mp nonempty
    apply StateSet.size_eq_one_iff.mpr
    exact ⟨target, unambiguous.eq_singleton listed belongs⟩
  · intro single source symbol left right leftMoves rightMoves
    obtain ⟨targets, listed, leftBelongs⟩ := mem_targets_iff.mp leftMoves
    obtain ⟨target, rfl⟩ := StateSet.size_eq_one_iff.mp (single _ _ listed)
    have rightBelongs : right ∈ StateSet.singleton target :=
      Draft.mem_targets_of_transitions listed ▸ rightMoves
    rw [StateSet.mem_singleton] at leftBelongs rightBelongs
    rw [leftBelongs, rightBelongs]

theorem checkDeterministic_eq_ok_iff :
    automaton.checkDeterministic = .ok () ↔ automaton.Unambiguous := by
  rw [unambiguous_iff, checkDeterministic]
  cases automaton.ambiguity? <;> simp

theorem isDeterministic_eq_true_iff :
    automaton.isDeterministic = true ↔ automaton.Unambiguous := by
  rw [unambiguous_iff, isDeterministic, Option.isNone_iff_eq_none]

/-! ## Successors -/

theorem mem_targets_of_successor? {source symbol target : Nat}
    (found : automaton.successor? source symbol = some target) :
    target ∈ automaton.targets source symbol := by
  obtain ⟨targets, listed, single⟩ := Option.bind_eq_some_iff.mp found
  rw [StateSet.single?_eq_some_iff] at single
  exact mem_targets_iff.mpr ⟨targets, listed, single ▸ StateSet.mem_singleton.mpr rfl⟩

theorem Unambiguous.successor?_eq_some_iff (unambiguous : automaton.Unambiguous)
    {source symbol target : Nat} :
    automaton.successor? source symbol = some target ↔
      target ∈ automaton.targets source symbol := by
  refine ⟨mem_targets_of_successor?, fun moves => ?_⟩
  obtain ⟨targets, listed, belongs⟩ := mem_targets_iff.mp moves
  have single := unambiguous.eq_singleton listed belongs
  exact Option.bind_eq_some_iff.mpr ⟨targets, listed, StateSet.single?_eq_some_iff.mpr single⟩

theorem lt_size_of_successor? {source symbol target : Nat}
    (found : automaton.successor? source symbol = some target) : target < automaton.size :=
  lt_size_of_mem_targets (mem_targets_of_successor? found)

theorem successor?_eq_none_of_symbol {source symbol : Nat}
    (outside : automaton.alphabetSize ≤ symbol) : automaton.successor? source symbol = none := by
  refine Option.eq_none_iff_forall_ne_some.mpr fun target found => ?_
  have inside := symbol_lt_of_mem_targets (mem_targets_of_successor? found)
  omega

/-- From one state, a deterministic automaton reaches at most one state. -/
theorem Unambiguous.image_singleton (unambiguous : automaton.Unambiguous) (source symbol : Nat) :
    automaton.image (StateSet.singleton source) symbol =
      match automaton.successor? source symbol with
      | some target => StateSet.singleton target
      | none => ∅ := by
  ext state
  have moves : state ∈ automaton.image (StateSet.singleton source) symbol ↔
      automaton.successor? source symbol = some state := by
    rw [mem_image, unambiguous.successor?_eq_some_iff]
    simp
  rw [moves]
  cases automaton.successor? source symbol with
  | none => simp
  | some target => simp [eq_comm]

/-! ## Words -/

/-- The state in which a word ends that is read by following single targets. -/
def read? (automaton : Automaton) (state : Nat) : Word → Option Nat
  | [] => some state
  | symbol :: rest =>
      (automaton.successor? state symbol).bind fun next => automaton.read? next rest

theorem lt_size_of_read? {state last : Nat} {word : Word} (inside : state < automaton.size)
    (found : automaton.read? state word = some last) : last < automaton.size := by
  induction word generalizing state with
  | nil => exact Option.some.inj found ▸ inside
  | cons symbol rest inductionHypothesis =>
      obtain ⟨next, moves, ends⟩ := Option.bind_eq_some_iff.mp found
      exact inductionHypothesis (lt_size_of_successor? moves) ends

/-- Whether the state in which a word ends is accepting, if the word can be read. -/
def outcome? (automaton : Automaton) (state : Nat) (word : Word) : Option Bool :=
  (automaton.read? state word).map automaton.isAccepting

theorem outcome?_nil {state : Nat} :
    automaton.outcome? state [] = some (automaton.isAccepting state) := rfl

theorem outcome?_cons {state symbol : Nat} {rest : Word} :
    automaton.outcome? state (symbol :: rest) =
      (automaton.successor? state symbol).bind fun next => automaton.outcome? next rest := by
  rw [outcome?, read?, Option.map_bind]
  rfl

/-- An outcome tells whether a word is accepted and whether it is read, and no more. -/
theorem outcome_ext {left right : Option Bool} (accepted : left = some true ↔ right = some true)
    (readable : left.isSome ↔ right.isSome) : left = right := by
  revert accepted readable
  rcases left with _ | _ | _ <;> rcases right with _ | _ | _ <;> simp

theorem Unambiguous.run_iff_read? (unambiguous : automaton.Unambiguous) {first last : Nat}
    {word : Word} : automaton.Run first word last ↔ automaton.read? first word = some last := by
  induction word generalizing first with
  | nil => simp [run_nil_iff, read?]
  | cons symbol rest inductionHypothesis =>
      rw [run_cons_iff, read?, Option.bind_eq_some_iff]
      simp only [unambiguous.successor?_eq_some_iff, inductionHypothesis]

theorem Unambiguous.accepts_iff_outcome? (unambiguous : automaton.Unambiguous) {word : Word} :
    automaton.Accepts word ↔
      ∃ first ∈ automaton.initial, automaton.outcome? first word = some true := by
  simp only [Accepts, unambiguous.run_iff_read?, outcome?, Option.map_eq_some_iff,
    isAccepting_iff]
  simp only [and_comm]

theorem Unambiguous.readable_iff_outcome? (unambiguous : automaton.Unambiguous) {word : Word} :
    automaton.Readable word ↔
      ∃ first ∈ automaton.initial, (automaton.outcome? first word).isSome := by
  simp only [Readable, unambiguous.run_iff_read?, outcome?, Option.isSome_map,
    Option.isSome_iff_exists]

end Automaton

end Acceptors
