import Acceptors.Proofs.Targets

/-!
Contract: a draft is built exactly when all of it is in range, and is refused with the first
failure otherwise.

Owns: what it means for a draft to be in range, the checks of a draft, their order and their
failures, and what an automaton keeps of the draft it was built from.
Does not own: the drafts that transformations build, and the text of a violation.

The check of a whole draft runs through one ascending list of small checks. An ordered list
gives the first failure, so it is enough to know which checks the list has.
-/

namespace Acceptors

namespace Draft

variable {draft : Draft}

/-- An entry that is not dropped. -/
def Kept (draft : Draft) (departure : Departure) (targets : StateSet) : Prop :=
  draft.transitions[departure]? = some targets ∧ targets ≠ ∅

/-- There is something to read and to start from, and every index that is kept is in range. -/
structure InRange (draft : Draft) : Prop where
  size_pos : 1 ≤ draft.size
  alphabetSize_pos : 1 ≤ draft.alphabetSize
  initial_nonempty : ∃ state, state ∈ draft.initial
  initial_lt : ∀ state ∈ draft.initial, state < draft.size
  accepting_lt : ∀ state ∈ draft.accepting, state < draft.size
  kept_lt : ∀ departure targets, draft.Kept departure targets →
    departure.source < draft.size ∧ departure.symbol < draft.alphabetSize ∧
      ∀ target ∈ targets, target < draft.size

theorem kept_prune_iff {departure : Departure} {targets : StateSet} :
    draft.prune.transitions[departure]? = some targets ↔ draft.Kept departure targets :=
  transitions_prune_eq_some_iff

theorem valid_prune_iff : draft.prune.Valid ↔ draft.InRange := by
  constructor
  · intro valid
    exact {
      size_pos := valid.size_pos
      alphabetSize_pos := valid.alphabetSize_pos
      initial_nonempty := StateSet.ne_empty_iff.mp valid.initial_nonempty
      initial_lt := valid.initial_lt
      accepting_lt := valid.accepting_lt
      kept_lt := fun departure targets kept =>
        have listed := kept_prune_iff.mpr kept
        ⟨valid.source_lt departure targets listed, valid.symbol_lt departure targets listed,
          valid.target_lt departure targets listed⟩ }
  · intro inRange
    exact {
      size_pos := inRange.size_pos
      alphabetSize_pos := inRange.alphabetSize_pos
      initial_nonempty := StateSet.ne_empty_iff.mpr inRange.initial_nonempty
      initial_lt := inRange.initial_lt
      accepting_lt := inRange.accepting_lt
      source_lt := fun departure targets listed =>
        (inRange.kept_lt departure targets (kept_prune_iff.mp listed)).1
      symbol_lt := fun departure targets listed =>
        (inRange.kept_lt departure targets (kept_prune_iff.mp listed)).2.1
      pruned := draft.pruned_prune
      target_lt := fun departure targets listed =>
        (inRange.kept_lt departure targets (kept_prune_iff.mp listed)).2.2 }

/-! ## Checks -/

/-- What is looked at in a draft, one thing at a time. -/
inductive Check where
  | states
  | alphabet
  | initialStates
  | initial (state : Nat)
  | accepting (state : Nat)
  | source (departure : Departure)
  | symbol (departure : Departure)
  | target (departure : Departure) (state : Nat)
deriving DecidableEq, Repr

/-- The part of the draft that is looked at. -/
def Check.stage : Check → Nat
  | .states => 0
  | .alphabet => 1
  | .initialStates => 2
  | .initial _ => 3
  | .accepting _ => 4
  | .source _ | .symbol _ | .target _ _ => 5

/-- The place of a check within its stage. -/
def Check.place : Check → List Nat
  | .states | .alphabet | .initialStates => []
  | .initial state | .accepting state => [state]
  | .source departure => [departure.source, departure.symbol, 0]
  | .symbol departure => [departure.source, departure.symbol, 1]
  | .target departure state => [departure.source, departure.symbol, 2, state]

/-- Checks are made stage by stage, and within a stage in the lexicographic order of their
places. -/
def Check.Precedes (left right : Check) : Prop :=
  left.stage < right.stage ∨ left.stage = right.stage ∧ left.place < right.place

/-- The check finds something wrong with the draft, and what it is. -/
inductive Fails (draft : Draft) : Check → Violation → Prop where
  | states (none : draft.size = 0) : draft.Fails .states .noStates
  | alphabet (none : draft.alphabetSize = 0) : draft.Fails .alphabet .emptyAlphabet
  | initialStates (none : ∀ state, state ∉ draft.initial) :
      draft.Fails .initialStates .noInitialStates
  | initial {state : Nat} (listed : state ∈ draft.initial) (outside : draft.size ≤ state) :
      draft.Fails (.initial state) (.stateOutOfRange state draft.size)
  | accepting {state : Nat} (listed : state ∈ draft.accepting) (outside : draft.size ≤ state) :
      draft.Fails (.accepting state) (.stateOutOfRange state draft.size)
  | source {departure : Departure} {targets : StateSet} (kept : draft.Kept departure targets)
      (outside : draft.size ≤ departure.source) :
      draft.Fails (.source departure) (.stateOutOfRange departure.source draft.size)
  | symbol {departure : Departure} {targets : StateSet} (kept : draft.Kept departure targets)
      (outside : draft.alphabetSize ≤ departure.symbol) :
      draft.Fails (.symbol departure) (.symbolOutOfRange departure.symbol draft.alphabetSize)
  | target {departure : Departure} {targets : StateSet} {state : Nat}
      (kept : draft.Kept departure targets) (listed : state ∈ targets)
      (outside : draft.size ≤ state) :
      draft.Fails (.target departure state) (.stateOutOfRange state draft.size)

/-- Some check fails with the violation, and none before it fails. -/
def FirstFailure (draft : Draft) (violation : Violation) : Prop :=
  ∃ check, draft.Fails check violation ∧
    ∀ earlier : Check, earlier.Precedes check → ∀ other, ¬draft.Fails earlier other

/-! ## The list of checks -/

/-- What a check finds, if the draft has the index it looks at. -/
def refusal? (draft : Draft) : Check → Option Violation
  | .states => if draft.size = 0 then some .noStates else none
  | .alphabet => if draft.alphabetSize = 0 then some .emptyAlphabet else none
  | .initialStates => if draft.initial.isEmpty then some .noInitialStates else none
  | .initial state => stateViolation? draft.size state
  | .accepting state => stateViolation? draft.size state
  | .source departure => stateViolation? draft.size departure.source
  | .symbol departure => symbolViolation? draft.alphabetSize departure.symbol
  | .target _ state => stateViolation? draft.size state

/-- The checks of one entry. -/
def Check.ofEntry (entry : Departure × StateSet) : List Check :=
  .source entry.1 :: .symbol entry.1 :: entry.2.toList.map (.target entry.1)

/-- The checks of a draft without empty target sets. -/
def checks (draft : Draft) : List Check :=
  [.states, .alphabet, .initialStates] ++ draft.initial.toList.map .initial ++
    draft.accepting.toList.map .accepting ++ draft.transitions.toList.flatMap Check.ofEntry

theorem findSome?_ofEntry (entry : Departure × StateSet) :
    (Check.ofEntry entry).findSome? draft.refusal? = draft.entryViolation? entry := by
  have targets : (entry.2.toList.map (Check.target entry.1)).findSome? draft.refusal? =
      entry.2.toList.findSome? (stateViolation? draft.size) := List.findSome?_map
  rw [Check.ofEntry, List.findSome?_cons, List.findSome?_cons, targets, entryViolation?]
  dsimp only [refusal?]
  cases stateViolation? draft.size entry.1.source with
  | some violation => rfl
  | none => cases symbolViolation? draft.alphabetSize entry.1.symbol <;> rfl

/-- The check of the whole draft runs through the list of its checks. -/
theorem violation?_eq_findSome? : draft.violation? = draft.checks.findSome? draft.refusal? := by
  have initial : (draft.initial.toList.map Check.initial).findSome? draft.refusal? =
      draft.initial.toList.findSome? (stateViolation? draft.size) := List.findSome?_map
  have accepting : (draft.accepting.toList.map Check.accepting).findSome? draft.refusal? =
      draft.accepting.toList.findSome? (stateViolation? draft.size) := List.findSome?_map
  have entries : (draft.transitions.toList.flatMap Check.ofEntry).findSome? draft.refusal? =
      draft.transitions.toList.findSome? draft.entryViolation? := by
    rw [← List.head?_filterMap, List.filterMap_flatMap, List.head?_flatMap]
    simp only [List.head?_filterMap, findSome?_ofEntry]
  rw [checks, List.findSome?_append, List.findSome?_append, List.findSome?_append, initial,
    accepting, entries, violation?]
  simp only [List.findSome?_cons, List.findSome?_nil, refusal?]
  split
  · rfl
  · split
    · rfl
    · split
      · rfl
      · rw [Option.none_or, Option.or_assoc]

/-- The draft has the index that the check looks at. -/
def Concerns (draft : Draft) : Check → Prop
  | .states | .alphabet | .initialStates => True
  | .initial state => state ∈ draft.initial
  | .accepting state => state ∈ draft.accepting
  | .source departure | .symbol departure =>
      ∃ targets, draft.transitions[departure]? = some targets
  | .target departure state =>
      ∃ targets, draft.transitions[departure]? = some targets ∧ state ∈ targets

theorem mem_ofEntry_iff {entry : Departure × StateSet} {check : Check} :
    check ∈ Check.ofEntry entry ↔
      check = .source entry.1 ∨ check = .symbol entry.1 ∨
        ∃ state ∈ entry.2, check = .target entry.1 state := by
  simp [Check.ofEntry, StateSet.mem_toList, eq_comm]

theorem mem_checks_iff {check : Check} : check ∈ draft.checks ↔ draft.Concerns check := by
  cases check <;>
    simp [checks, mem_ofEntry_iff, Concerns, StateSet.mem_toList,
      Std.ExtTreeMap.mem_toList_iff_getElem?_eq_some, ← and_assoc, exists_and_right]

namespace Check

theorem Precedes.asymm {left right : Check} (precedes : left.Precedes right) :
    ¬right.Precedes left := by
  rintro (later | ⟨_, later⟩)
  · rcases precedes with less | ⟨same, _⟩ <;> omega
  · rcases precedes with less | ⟨_, less⟩
    · omega
    · exact List.lt_asymm less later

theorem stage_of_mem_ofEntry {entry : Departure × StateSet} {check : Check}
    (listed : check ∈ ofEntry entry) : check.stage = 5 := by
  rcases mem_ofEntry_iff.mp listed with rfl | rfl | ⟨state, _, rfl⟩ <;> rfl

theorem exists_place_of_mem_ofEntry {entry : Departure × StateSet} {check : Check}
    (listed : check ∈ ofEntry entry) :
    ∃ rest, check.place = entry.1.source :: entry.1.symbol :: rest := by
  rcases mem_ofEntry_iff.mp listed with rfl | rfl | ⟨state, _, rfl⟩ <;> exact ⟨_, rfl⟩

/-- The checks of an entry come before those of a later entry. -/
theorem precedes_of_entry_precedes {entry other : Departure × StateSet}
    (precedes : entry.1.Precedes other.1) {left right : Check}
    (leftListed : left ∈ ofEntry entry) (rightListed : right ∈ ofEntry other) :
    left.Precedes right := by
  obtain ⟨leftRest, leftPlace⟩ := exists_place_of_mem_ofEntry leftListed
  obtain ⟨rightRest, rightPlace⟩ := exists_place_of_mem_ofEntry rightListed
  refine Or.inr ⟨?_, ?_⟩
  · rw [stage_of_mem_ofEntry leftListed, stage_of_mem_ofEntry rightListed]
  · rw [leftPlace, rightPlace]
    rcases precedes with less | ⟨same, less⟩
    · simp [List.cons_lt_cons_iff, less]
    · simp [List.cons_lt_cons_iff, same, less]

/-- Checks of the states of a set are ascending when they differ in the state only. -/
theorem pairwise_map_toList (set : StateSet) (check : Nat → Check) (stage : Nat)
    (front : List Nat) (stage_eq : ∀ state, (check state).stage = stage)
    (place_eq : ∀ state, (check state).place = front ++ [state]) :
    (set.toList.map check).Pairwise Precedes := by
  refine List.pairwise_map.mpr (set.ascending.imp fun {left right} less => Or.inr ⟨?_, ?_⟩)
  · rw [stage_eq, stage_eq]
  · rw [place_eq, place_eq]
    exact List.append_left_lt (List.cons_lt_cons_iff.mpr (Or.inl less))

theorem pairwise_ofEntry (entry : Departure × StateSet) :
    (ofEntry entry).Pairwise Precedes := by
  have targets : (entry.2.toList.map (target entry.1)).Pairwise Precedes :=
    pairwise_map_toList entry.2 (target entry.1) 5 [entry.1.source, entry.1.symbol, 2]
      (fun _ => rfl) fun _ => rfl
  refine List.pairwise_cons.mpr ⟨fun check listed => ?_, List.pairwise_cons.mpr
    ⟨fun check listed => ?_, targets⟩⟩
  · rcases List.mem_cons.mp listed with rfl | listed
    · simp [Precedes, stage, place, List.cons_lt_cons_iff]
    · obtain ⟨state, _, rfl⟩ := List.mem_map.mp listed
      simp [Precedes, stage, place, List.cons_lt_cons_iff]
  · obtain ⟨state, _, rfl⟩ := List.mem_map.mp listed
    simp [Precedes, stage, place, List.cons_lt_cons_iff]

end Check

/-- The checks of a stage can be put after an ascending list of earlier ones. -/
theorem pairwise_append_stage {before next : List Check} (stage : Nat)
    (beforeOrdered : before.Pairwise Check.Precedes) (nextOrdered : next.Pairwise Check.Precedes)
    (beforeStage : ∀ check ∈ before, check.stage < stage)
    (nextStage : ∀ check ∈ next, check.stage = stage) :
    (before ++ next).Pairwise Check.Precedes ∧
      ∀ check ∈ before ++ next, check.stage < stage + 1 := by
  constructor
  · refine List.pairwise_append.mpr ⟨beforeOrdered, nextOrdered, ?_⟩
    intro left leftListed right rightListed
    exact Or.inl (nextStage right rightListed ▸ beforeStage left leftListed)
  · intro check listed
    rcases List.mem_append.mp listed with isBefore | isNext
    · exact Nat.lt_succ_of_lt (beforeStage check isBefore)
    · exact Nat.lt_succ_of_le (Nat.le_of_eq (nextStage check isNext))

theorem pairwise_checks : draft.checks.Pairwise Check.Precedes := by
  have heading : [Check.states, .alphabet, .initialStates].Pairwise Check.Precedes := by
    simp [Check.Precedes, Check.stage]
  have initial := Check.pairwise_map_toList draft.initial .initial 3 []
    (fun _ => rfl) fun _ => rfl
  have accepting := Check.pairwise_map_toList draft.accepting .accepting 4 []
    (fun _ => rfl) fun _ => rfl
  have entries : (draft.transitions.toList.flatMap Check.ofEntry).Pairwise Check.Precedes :=
    List.pairwise_flatMap.mpr ⟨fun entry _ => Check.pairwise_ofEntry entry,
      Std.ExtTreeMap.ordered_keys_toList.imp fun less _ listed _ otherListed =>
        Check.precedes_of_entry_precedes ((Departure.compare_eq_lt_iff _ _).mp less)
          listed otherListed⟩
  have first := pairwise_append_stage 3 heading initial (by simp [Check.stage])
    (by simp [Check.stage])
  have second := pairwise_append_stage 4 first.1 accepting first.2 (by simp [Check.stage])
  refine (pairwise_append_stage 5 second.1 entries second.2 fun check listed => ?_).1
  obtain ⟨entry, _, ofEntry⟩ := List.mem_flatMap.mp listed
  exact Check.stage_of_mem_ofEntry ofEntry

/-! ## The first failure -/

theorem violation?_eq_some_iff {violation : Violation} :
    draft.violation? = some violation ↔
      ∃ check ∈ draft.checks, draft.refusal? check = some violation ∧
        ∀ earlier ∈ draft.checks, earlier.Precedes check → draft.refusal? earlier = none := by
  have ordered := draft.pairwise_checks
  rw [violation?_eq_findSome?]
  constructor
  · intro found
    obtain ⟨before, check, after, checks_eq, fails, pass⟩ := List.findSome?_eq_some_iff.mp found
    rw [checks_eq] at ordered ⊢
    exact ⟨check, List.mem_append_right _ List.mem_cons_self, fails, fun earlier listed precedes =>
      pass earlier (mem_of_precedes Check.Precedes.asymm ordered listed precedes)⟩
  · rintro ⟨check, listed, fails, pass⟩
    obtain ⟨before, after, checks_eq⟩ := List.append_of_mem listed
    rw [checks_eq] at ordered pass
    refine List.findSome?_eq_some_iff.mpr
      ⟨before, check, after, checks_eq, fails, fun earlier isBefore => ?_⟩
    exact pass earlier (List.mem_append_left _ isBefore)
      ((List.pairwise_append.mp ordered).2.2 earlier isBefore check List.mem_cons_self)

/-- A check that fails is made of the pruned draft and refuses it. -/
theorem Fails.refuses {check : Check} {violation : Violation}
    (fails : draft.Fails check violation) :
    draft.prune.Concerns check ∧ draft.prune.refusal? check = some violation := by
  cases fails with
  | states none => exact ⟨trivial, if_pos none⟩
  | alphabet none => exact ⟨trivial, if_pos none⟩
  | initialStates none =>
      have empty : draft.initial = ∅ := StateSet.ext fun state => by simp [none state]
      exact ⟨trivial, if_pos (StateSet.isEmpty_iff.mpr empty)⟩
  | initial listed outside => exact ⟨listed, if_neg (Nat.not_lt.mpr outside)⟩
  | accepting listed outside => exact ⟨listed, if_neg (Nat.not_lt.mpr outside)⟩
  | source kept outside =>
      exact ⟨⟨_, kept_prune_iff.mpr kept⟩, if_neg (Nat.not_lt.mpr outside)⟩
  | symbol kept outside =>
      exact ⟨⟨_, kept_prune_iff.mpr kept⟩, if_neg (Nat.not_lt.mpr outside)⟩
  | target kept listed outside =>
      exact ⟨⟨_, kept_prune_iff.mpr kept, listed⟩, if_neg (Nat.not_lt.mpr outside)⟩

theorem fails_of_refusal? {check : Check} {violation : Violation}
    (concerns : draft.prune.Concerns check)
    (refuses : draft.prune.refusal? check = some violation) : draft.Fails check violation := by
  cases check with
  | states =>
      obtain ⟨none, ⟨⟩⟩ := Option.ite_none_right_eq_some.mp refuses
      exact .states none
  | alphabet =>
      obtain ⟨none, ⟨⟩⟩ := Option.ite_none_right_eq_some.mp refuses
      exact .alphabet none
  | initialStates =>
      obtain ⟨none, ⟨⟩⟩ := Option.ite_none_right_eq_some.mp refuses
      have empty : draft.initial = ∅ := StateSet.isEmpty_iff.mp none
      exact .initialStates fun state => by simp [empty]
  | initial state =>
      obtain ⟨outside, ⟨⟩⟩ := Option.ite_none_left_eq_some.mp refuses
      exact .initial concerns (Nat.not_lt.mp outside)
  | accepting state =>
      obtain ⟨outside, ⟨⟩⟩ := Option.ite_none_left_eq_some.mp refuses
      exact .accepting concerns (Nat.not_lt.mp outside)
  | source departure =>
      obtain ⟨targets, listed⟩ := concerns
      obtain ⟨outside, ⟨⟩⟩ := Option.ite_none_left_eq_some.mp refuses
      exact .source (kept_prune_iff.mp listed) (Nat.not_lt.mp outside)
  | symbol departure =>
      obtain ⟨targets, listed⟩ := concerns
      obtain ⟨outside, ⟨⟩⟩ := Option.ite_none_left_eq_some.mp refuses
      exact .symbol (kept_prune_iff.mp listed) (Nat.not_lt.mp outside)
  | target departure state =>
      obtain ⟨targets, listed, inside⟩ := concerns
      obtain ⟨outside, ⟨⟩⟩ := Option.ite_none_left_eq_some.mp refuses
      exact .target (kept_prune_iff.mp listed) inside (Nat.not_lt.mp outside)

theorem fails_iff {check : Check} {violation : Violation} :
    draft.Fails check violation ↔
      draft.prune.Concerns check ∧ draft.prune.refusal? check = some violation :=
  ⟨Fails.refuses, fun refused => fails_of_refusal? refused.1 refused.2⟩

theorem violation?_prune_eq_some_iff {violation : Violation} :
    draft.prune.violation? = some violation ↔ draft.FirstFailure violation := by
  simp only [violation?_eq_some_iff, mem_checks_iff, FirstFailure, fails_iff]
  constructor
  · rintro ⟨check, concerns, refuses, pass⟩
    refine ⟨check, ⟨concerns, refuses⟩, fun earlier precedes other fails => ?_⟩
    rw [pass earlier fails.1 precedes] at fails
    cases fails.2
  · rintro ⟨check, ⟨concerns, refuses⟩, first⟩
    refine ⟨check, concerns, refuses, fun earlier earlierConcerns precedes => ?_⟩
    exact Option.eq_none_iff_forall_ne_some.mpr fun other refusesEarlier =>
      first earlier precedes other ⟨earlierConcerns, refusesEarlier⟩

/-! ## Building -/

/-- The automaton has the parts of the draft, and those of its entries that are not dropped. -/
structure KeptBy (draft : Draft) (automaton : Automaton) : Prop where
  size_eq : automaton.size = draft.size
  alphabetSize_eq : automaton.alphabetSize = draft.alphabetSize
  initial_eq : automaton.initial = draft.initial
  accepting_eq : automaton.accepting = draft.accepting
  transitions_iff : ∀ departure targets,
    automaton.transitions[departure]? = some targets ↔ draft.Kept departure targets

theorem keptBy_of_build {automaton : Automaton} (built : draft.build = .ok automaton) :
    draft.KeptBy automaton := by
  have same := build_eq_ok_iff_prune.mp built
  refine ⟨?_, ?_, ?_, ?_, fun departure targets => ?_⟩
  · rw [same, prune]
  · rw [same, prune]
  · rw [same, prune]
  · rw [same, prune]
  · rw [same]
    exact kept_prune_iff

theorem exists_build_iff : (∃ automaton, draft.build = .ok automaton) ↔ draft.InRange := by
  simp only [build_eq_ok_iff_prune]
  rw [← valid_prune_iff]
  exact ⟨fun ⟨automaton, same⟩ => same ▸ automaton.valid, fun valid => ⟨⟨draft.prune, valid⟩, rfl⟩⟩

/-- A draft is built exactly when it is in range, into an automaton that keeps all of it but the
entries without targets. Otherwise the violation is that of the first check that fails. -/
theorem build_validates (draft : Draft) :
    ((∃ automaton, draft.build = .ok automaton) ↔ draft.InRange) ∧
    (∀ automaton, draft.build = .ok automaton → draft.KeptBy automaton) ∧
    ∀ violation, draft.build = .error violation ↔ draft.FirstFailure violation :=
  ⟨exists_build_iff, fun _ => keptBy_of_build, fun _ =>
    build_eq_error_iff_prune.trans violation?_prune_eq_some_iff⟩

end Draft

end Acceptors
