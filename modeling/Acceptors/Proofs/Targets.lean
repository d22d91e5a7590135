import Acceptors.Automaton

/-!
Contract: the targets of all departures determine the transitions.

Owns: the bounds on both ends of a step, the departures in range and their number, the
equality of drafts and of automata whose parts and targets are equal, and the building of a
valid draft.
Does not own: the operations that build automata.

A departure without targets has no entry, so the entry of a departure can be told from
its targets. To show two automata equal it is enough to compare targets.
-/

namespace Acceptors

namespace Draft

/-- The entry of a departure, if its targets are known. -/
theorem getElem?_transitions {draft : Draft} (pruned : draft.Pruned) (departure : Departure) :
    draft.transitions[departure]? =
      if draft.targets departure.source departure.symbol = ∅ then none
      else some (draft.targets departure.source departure.symbol) := by
  cases listed : draft.transitions[departure]? with
  | none => simp [targets, listed]
  | some entry =>
      rw [mem_targets_of_transitions listed, if_neg (pruned departure entry listed)]

/-- Drafts without empty target sets are equal when their parts and targets are. -/
theorem ext_targets {left right : Draft} (leftPruned : left.Pruned) (rightPruned : right.Pruned)
    (size_eq : left.size = right.size) (alphabetSize_eq : left.alphabetSize = right.alphabetSize)
    (initial_eq : left.initial = right.initial) (accepting_eq : left.accepting = right.accepting)
    (targets_eq : ∀ source symbol, left.targets source symbol = right.targets source symbol) :
    left = right := by
  have transitions_eq : left.transitions = right.transitions := by
    apply Std.ExtTreeMap.ext_getElem?
    intro departure
    rw [getElem?_transitions leftPruned, getElem?_transitions rightPruned, targets_eq]
  cases left
  cases right
  simp_all

theorem prune_eq_self {draft : Draft} (pruned : draft.Pruned) : draft.prune = draft := by
  have kept : draft.prune.transitions = draft.transitions := by
    apply Std.ExtTreeMap.ext_getElem?
    intro departure
    ext targets
    rw [transitions_prune_eq_some_iff, and_iff_left_iff_imp]
    exact pruned departure targets
  cases draft
  exact congrArg _ kept

theorem build_eq_ok_iff_prune {draft : Draft} {automaton : Automaton} :
    draft.build = .ok automaton ↔ automaton.toDraft = draft.prune := by
  constructor
  · intro built
    unfold build at built
    split at built
    · cases built
    · cases built
      rfl
  · intro same
    have noViolation : draft.prune.violation? = none :=
      (violation?_eq_none_iff draft.pruned_prune).mpr (same ▸ automaton.valid)
    unfold build
    split
    · rename_i violation check
      rw [noViolation] at check
      cases check
    · exact congrArg Except.ok (Automaton.ext_draft same.symm)

theorem build_eq_error_iff_prune {draft : Draft} {violation : Violation} :
    draft.build = .error violation ↔ draft.prune.violation? = some violation := by
  unfold build
  split
  · rename_i found check
    rw [check, Except.error.injEq, Option.some.injEq]
  · rename_i check
    simp [check]

theorem build_eq_ok_iff {draft : Draft} (pruned : draft.Pruned) {automaton : Automaton} :
    draft.build = .ok automaton ↔ automaton.toDraft = draft := by
  rw [build_eq_ok_iff_prune, prune_eq_self pruned]

theorem build_eq_error_iff {draft : Draft} (pruned : draft.Pruned) {violation : Violation} :
    draft.build = .error violation ↔ draft.violation? = some violation := by
  rw [build_eq_error_iff_prune, prune_eq_self pruned]

/-- A valid draft is built as it is. -/
theorem build_eq_ok {draft : Draft} (valid : draft.Valid) : draft.build = .ok ⟨draft, valid⟩ :=
  (build_eq_ok_iff valid.pruned).mpr rfl

end Draft

namespace Automaton

variable {automaton : Automaton}

theorem source_lt_of_mem_targets {source symbol target : Nat}
    (moves : target ∈ automaton.targets source symbol) : source < automaton.size := by
  obtain ⟨targets, listed, _⟩ := mem_targets_iff.mp moves
  exact automaton.valid.source_lt _ _ listed

theorem symbol_lt_of_mem_targets {source symbol target : Nat}
    (moves : target ∈ automaton.targets source symbol) : symbol < automaton.alphabetSize := by
  obtain ⟨targets, listed, _⟩ := mem_targets_iff.mp moves
  exact automaton.valid.symbol_lt _ _ listed

theorem exists_transitions_of_mem_keys {departure : Departure}
    (listed : departure ∈ automaton.transitions.keys) :
    ∃ targets, automaton.transitions[departure]? = some targets :=
  ⟨_, Std.ExtTreeMap.getElem?_eq_some_getElem (Std.ExtTreeMap.mem_keys.mp listed)⟩

/-- The pairs of a state and something else are as many as the product of both numbers. -/
theorem length_flatMap_map {Other Pair : Type} (pair : Nat → Other → Pair) (states : List Nat)
    (others : List Other) :
    (states.flatMap fun state => others.map (pair state)).length =
      states.length * others.length := by
  simp only [List.length_flatMap, List.length_map, List.map_const', List.sum_replicate_nat]

/-- Every state together with every symbol. -/
def departures (automaton : Automaton) : List Departure :=
  automaton.states.flatMap fun source => automaton.symbols.map (Departure.mk source)

theorem mem_departures_iff {departure : Departure} :
    departure ∈ automaton.departures ↔
      departure.source < automaton.size ∧ departure.symbol < automaton.alphabetSize := by
  obtain ⟨source, symbol⟩ := departure
  simp [departures, states, symbols]

theorem nodup_departures (automaton : Automaton) : automaton.departures.Nodup := by
  have sameSource {source : Nat} {departure : Departure}
      (listed : departure ∈ automaton.symbols.map (Departure.mk source)) :
      departure.source = source := by
    obtain ⟨symbol, _, rfl⟩ := List.mem_map.mp listed
    rfl
  refine List.pairwise_flatMap.mpr ⟨fun source _ => ?_, ?_⟩
  · refine List.pairwise_map.mpr (List.nodup_range.imp fun different same => different ?_)
    exact congrArg Departure.symbol same
  · refine List.nodup_range.imp fun different left leftListed right rightListed same => ?_
    exact different (by rw [← sameSource leftListed, ← sameSource rightListed, same])

theorem length_departures (automaton : Automaton) :
    automaton.departures.length = automaton.size * automaton.alphabetSize := by
  rw [departures, length_flatMap_map, states, symbols, List.length_range, List.length_range]

/-- There is at most one entry for every state and symbol. -/
theorem transitionCount_le (automaton : Automaton) :
    automaton.transitionCount ≤ automaton.size * automaton.alphabetSize := by
  have inside : automaton.transitions.keys ⊆ automaton.departures := by
    intro departure listed
    obtain ⟨targets, entry⟩ := exists_transitions_of_mem_keys listed
    exact mem_departures_iff.mpr ⟨automaton.valid.source_lt departure targets entry,
      automaton.valid.symbol_lt departure targets entry⟩
  rw [← length_departures, transitionCount, ← Std.ExtTreeMap.length_keys]
  exact Std.ExtTreeMap.nodup_keys.length_le_of_subset inside

/-- Automata are equal when their parts and targets are. -/
theorem ext_targets {left right : Automaton} (size_eq : left.size = right.size)
    (alphabetSize_eq : left.alphabetSize = right.alphabetSize)
    (initial_eq : left.initial = right.initial) (accepting_eq : left.accepting = right.accepting)
    (targets_eq : ∀ source symbol, left.targets source symbol = right.targets source symbol) :
    left = right :=
  ext_draft (Draft.ext_targets left.valid.pruned right.valid.pruned size_eq alphabetSize_eq
    initial_eq accepting_eq targets_eq)

end Automaton

end Acceptors
