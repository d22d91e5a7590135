import Acceptors.Proofs.CheckedRefinement
import Acceptors.Proofs.Merging

/-!
Contract: which partitions the states of an automaton can be merged by without a breach.

Owns: the effect of one transition that is added and of all of them, the condition under
which none is refused, and the automaton that results.
Does not own: how a partition was found.

The table that is filled while states are merged never changes an entry: a transition that
is added twice has to say the same twice. So the final table says exactly what the listed
transitions say, and none is refused if and only if they agree.
-/

namespace Acceptors

namespace Checked

variable {automaton : Automaton} {partition : Partition automaton.size}

/-- No departure has several targets, and departures of one block on one symbol lead to
one block. -/
structure Mergeable (automaton : Automaton) (partition : Partition automaton.size) : Prop where
  unambiguous : automaton.Unambiguous
  together : ∀ left right symbol leftTarget rightTarget,
    leftTarget ∈ automaton.targets left symbol → rightTarget ∈ automaton.targets right symbol →
      partition.indexOf left = partition.indexOf right →
        partition.indexOf leftTarget = partition.indexOf rightTarget

/-- The entry says that on this departure between blocks these are the targets. -/
def Says (partition : Partition automaton.size) (entry : Departure × StateSet)
    (departure : Departure) (targets : StateSet) : Prop :=
  ∃ target, entry.2.single? = some target ∧
    (⟨partition.indexOf entry.1.source, entry.1.symbol⟩ : Departure) = departure ∧
    StateSet.singleton (partition.indexOf target) = targets

/-! ## One transition -/

theorem addTransition_eq_ok_iff {transitions later : Transitions} {entry : Departure × StateSet} :
    addTransition partition transitions entry = .ok later ↔
      ∃ target, entry.2.single? = some target ∧ entry.1.source < automaton.size ∧
        target < automaton.size ∧
        (∀ targets, transitions[(⟨partition.indexOf entry.1.source, entry.1.symbol⟩ :
            Departure)]? = some targets →
          targets = StateSet.singleton (partition.indexOf target)) ∧
        later = transitions.insert ⟨partition.indexOf entry.1.source, entry.1.symbol⟩
          (StateSet.singleton (partition.indexOf target)) := by
  simp only [addTransition, bind_eq_ok_iff, demand_eq_ok_iff, blockOf_eq_ok_iff,
    Option.all_eq_true, decide_eq_true_eq]
  constructor
  · intro ⟨target, single, _, ⟨sourceInside, rfl⟩, _, ⟨targetInside, rfl⟩, added⟩
    split at added
    · rename_i agrees
      cases added
      exact ⟨target, single, sourceInside, targetInside, agrees, rfl⟩
    · cases added
  · intro ⟨target, single, sourceInside, targetInside, agrees, added⟩
    refine ⟨target, single, _, ⟨sourceInside, rfl⟩, _, ⟨targetInside, rfl⟩, ?_⟩
    rw [if_pos agrees, added]

/-- A transition that is added is noted, and nothing else changes. -/
theorem getElem?_of_addTransition {transitions later : Transitions}
    {entry : Departure × StateSet}
    (added : addTransition partition transitions entry = .ok later) (departure : Departure)
    (targets : StateSet) :
    later[departure]? = some targets ↔
      transitions[departure]? = some targets ∨ Says partition entry departure targets := by
  obtain ⟨target, single, _, _, agrees, rfl⟩ := addTransition_eq_ok_iff.mp added
  rw [Std.ExtTreeMap.getElem?_insert]
  simp only [Std.LawfulEqCmp.compare_eq_iff_eq, Says, single, Option.some.injEq, exists_eq_left']
  split
  · rename_i same
    rw [Option.some.injEq]
    constructor
    · intro now
      exact Or.inr ⟨same, now⟩
    · intro now
      rcases now with earlier | ⟨_, now⟩
      · exact (agrees targets (same ▸ earlier)).symm
      · exact now
  · rename_i different
    simp [different]

/-! ## All transitions -/

theorem getElem?_of_foldlM {transitions final : Transitions}
    {entries : List (Departure × StateSet)}
    (folded : entries.foldlM (addTransition partition) transitions = .ok final)
    (departure : Departure) (targets : StateSet) :
    final[departure]? = some targets ↔ transitions[departure]? = some targets ∨
      ∃ entry ∈ entries, Says partition entry departure targets := by
  induction entries generalizing transitions with
  | nil =>
      rw [List.foldlM_nil, pure_eq_ok_iff] at folded
      simp [folded]
  | cons head tail inductionHypothesis =>
      rw [List.foldlM_cons] at folded
      obtain ⟨later, added, rest⟩ := bind_eq_ok_iff.mp folded
      rw [inductionHypothesis rest, getElem?_of_addTransition added, or_assoc]
      simp only [List.mem_cons, exists_eq_or_imp]

/-- Whatever is added has one target. -/
theorem exists_single?_of_foldlM {transitions final : Transitions}
    {entries : List (Departure × StateSet)}
    (folded : entries.foldlM (addTransition partition) transitions = .ok final) :
    ∀ entry ∈ entries, ∃ target, entry.2.single? = some target := by
  induction entries generalizing transitions with
  | nil => exact fun _ listed => absurd listed List.not_mem_nil
  | cons head tail inductionHypothesis =>
      rw [List.foldlM_cons] at folded
      obtain ⟨later, added, rest⟩ := bind_eq_ok_iff.mp folded
      obtain ⟨target, single, _⟩ := addTransition_eq_ok_iff.mp added
      intro entry listed
      rcases List.mem_cons.mp listed with rfl | later
      · exact ⟨target, single⟩
      · exact inductionHypothesis rest entry later

/-- A filled table shows that the transitions agree. -/
theorem mergeable_of_foldlM {final : Transitions}
    (folded : automaton.entries.foldlM (addTransition partition) ∅ = .ok final) :
    Mergeable automaton partition := by
  have single := exists_single?_of_foldlM folded
  have unambiguous : automaton.Unambiguous := by
    rw [Automaton.unambiguous_iff, Automaton.ambiguity?_eq_none_iff]
    intro departure targets listed
    obtain ⟨target, found⟩ :=
      single _ (Std.ExtTreeMap.mem_toList_iff_getElem?_eq_some.mpr listed)
    exact StateSet.size_eq_one_iff.mpr ⟨target, StateSet.single?_eq_some_iff.mp found⟩
  refine ⟨unambiguous, ?_⟩
  intro left right symbol leftTarget rightTarget leftMoves rightMoves together
  have noted {source target : Nat} (moves : target ∈ automaton.targets source symbol) :
      final[(⟨partition.indexOf source, symbol⟩ : Departure)]? =
        some (StateSet.singleton (partition.indexOf target)) := by
    obtain ⟨targets, listed, belongs⟩ := Automaton.mem_targets_iff.mp moves
    have isSingle := StateSet.single?_eq_some_iff.mpr (unambiguous.eq_singleton listed belongs)
    exact (getElem?_of_foldlM folded _ _).mpr (Or.inr ⟨_,
      Std.ExtTreeMap.mem_toList_iff_getElem?_eq_some.mpr listed, target, isSingle, rfl, rfl⟩)
  have same := noted leftMoves
  rw [together, noted rightMoves] at same
  exact (StateSet.singleton_eq_singleton_iff.mp (Option.some.inj same)).symm

namespace Mergeable

variable (mergeable : Mergeable automaton partition)

include mergeable

/-- Two entries say the same of one departure. -/
theorem says_unique {left right : Departure × StateSet} (leftListed : left ∈ automaton.entries)
    (rightListed : right ∈ automaton.entries) {departure : Departure}
    {leftTargets rightTargets : StateSet} (leftSays : Says partition left departure leftTargets)
    (rightSays : Says partition right departure rightTargets) : leftTargets = rightTargets := by
  have moves {entry : Departure × StateSet} (listed : entry ∈ automaton.entries) {target : Nat}
      (single : entry.2.single? = some target) :
      target ∈ automaton.targets entry.1.source entry.1.symbol :=
    Automaton.mem_targets_of_successor? (Option.bind_eq_some_iff.mpr
      ⟨entry.2, Std.ExtTreeMap.mem_toList_iff_getElem?_eq_some.mp listed, single⟩)
  obtain ⟨leftTarget, leftSingle, leftDeparture, rfl⟩ := leftSays
  obtain ⟨rightTarget, rightSingle, rightDeparture, rfl⟩ := rightSays
  rw [← rightDeparture] at leftDeparture
  injection leftDeparture with sources symbols
  have leftMoves := moves leftListed leftSingle
  rw [symbols] at leftMoves
  rw [mergeable.together _ _ _ _ _ leftMoves (moves rightListed rightSingle) sources]

/-- No transition is refused as long as the table says what listed transitions say. -/
theorem exists_foldlM {transitions : Transitions} {entries : List (Departure × StateSet)}
    (listed : ∀ entry ∈ entries, entry ∈ automaton.entries)
    (known : ∀ (departure : Departure) (targets : StateSet),
      transitions[departure]? = some targets →
        ∃ entry ∈ automaton.entries, Says partition entry departure targets) :
    ∃ final, entries.foldlM (addTransition partition) transitions = .ok final := by
  induction entries generalizing transitions with
  | nil => exact ⟨transitions, rfl⟩
  | cons head tail inductionHypothesis =>
      have headListed := listed head List.mem_cons_self
      have found := Std.ExtTreeMap.mem_toList_iff_getElem?_eq_some.mp headListed
      obtain ⟨target, belongs⟩ :=
        StateSet.ne_empty_iff.mp (automaton.valid.pruned head.1 head.2 found)
      have single := StateSet.single?_eq_some_iff.mpr
        (mergeable.unambiguous.eq_singleton found belongs)
      have agrees (targets : StateSet)
          (earlier : transitions[(⟨partition.indexOf head.1.source, head.1.symbol⟩ :
            Departure)]? = some targets) :
          targets = StateSet.singleton (partition.indexOf target) := by
        obtain ⟨entry, entryListed, entrySays⟩ := known _ targets earlier
        exact mergeable.says_unique entryListed headListed entrySays ⟨target, single, rfl, rfl⟩
      have added := addTransition_eq_ok_iff.mpr ⟨target, single,
        automaton.valid.source_lt head.1 head.2 found,
        automaton.valid.target_lt head.1 head.2 found target belongs, agrees, rfl⟩
      rw [List.foldlM_cons, added, ok_bind]
      apply inductionHypothesis fun entry later => listed entry (List.mem_cons_of_mem _ later)
      intro departure targets now
      rcases (getElem?_of_addTransition added departure targets).mp now with earlier | headSays
      · exact known departure targets earlier
      · exact ⟨head, headListed, headSays⟩

/-- The merged automaton has the transitions that the listed transitions say. -/
theorem getElem?_transitions_quotient (departure : Departure) (targets : StateSet) :
    (automaton.quotient partition).transitions[departure]? = some targets ↔
      ∃ entry ∈ automaton.entries, Says partition entry departure targets := by
  have said {source symbol target : Nat} (moves : target ∈ automaton.targets source symbol) :
      (automaton.quotient partition).transitions[(⟨partition.indexOf source, symbol⟩ :
        Departure)]? = some (StateSet.singleton (partition.indexOf target)) := by
    have merged : (automaton.quotient partition).targets (partition.indexOf source) symbol =
        StateSet.singleton (partition.indexOf target) := by
      ext block
      rw [Automaton.mem_targets_quotient_iff, StateSet.mem_singleton]
      constructor
      · intro ⟨other, otherTarget, otherMoves, sameBlock, targetBlock⟩
        rw [← targetBlock]
        exact mergeable.together _ _ _ _ _ otherMoves moves sameBlock
      · intro same
        exact ⟨source, target, moves, rfl, same.symm⟩
    have nonempty : StateSet.singleton (partition.indexOf target) ≠ ∅ :=
      StateSet.ne_empty_iff.mpr ⟨_, StateSet.mem_singleton.mpr rfl⟩
    rw [Draft.getElem?_transitions (automaton.quotient partition).valid.pruned]
    dsimp only
    rw [merged, if_neg nonempty]
  constructor
  · intro listed
    obtain ⟨block, belongs⟩ :=
      StateSet.ne_empty_iff.mp ((automaton.quotient partition).valid.pruned _ _ listed)
    obtain ⟨source, target, moves, sourceBlock, _⟩ := Automaton.mem_targets_quotient_iff.mp
      (Automaton.mem_targets_iff.mpr ⟨targets, listed, belongs⟩)
    obtain ⟨sources, sourceListed, targetBelongs⟩ := Automaton.mem_targets_iff.mp moves
    have single := StateSet.single?_eq_some_iff.mpr
      (mergeable.unambiguous.eq_singleton sourceListed targetBelongs)
    have same := said moves
    rw [sourceBlock, listed] at same
    exact ⟨(⟨source, departure.symbol⟩, sources),
      Std.ExtTreeMap.mem_toList_iff_getElem?_eq_some.mpr sourceListed, target, single,
      by rw [sourceBlock], (Option.some.inj same).symm⟩
  · intro ⟨entry, listed, target, single, same, targets_eq⟩
    rw [← same, ← targets_eq]
    exact said (Automaton.mem_targets_of_successor? (Option.bind_eq_some_iff.mpr
      ⟨entry.2, Std.ExtTreeMap.mem_toList_iff_getElem?_eq_some.mp listed, single⟩))

end Mergeable

/-! ## The merged automaton -/

theorem quotient_eq_of_foldlM {final : Transitions}
    (folded : automaton.entries.foldlM (addTransition partition) ∅ = .ok final) :
    quotient automaton partition = .ok (automaton.quotient partition) := by
  have initial : automaton.initial.toList.mapM (blockOf partition) =
      .ok (automaton.initial.toList.map partition.indexOf) :=
    mapM_eq_ok fun state belongs =>
      blockOf_eq_ok_iff.mpr ⟨automaton.valid.initial_lt state belongs, rfl⟩
  have accepting : automaton.accepting.toList.mapM (blockOf partition) =
      .ok (automaton.accepting.toList.map partition.indexOf) :=
    mapM_eq_ok fun state belongs =>
      blockOf_eq_ok_iff.mpr ⟨automaton.valid.accepting_lt state belongs, rfl⟩
  have transitions : final = (automaton.quotient partition).transitions := by
    apply Std.ExtTreeMap.ext_getElem?
    intro departure
    ext targets
    rw [getElem?_of_foldlM folded,
      (mergeable_of_foldlM folded).getElem?_transitions_quotient]
    simp
  have draft : (⟨partition.count, automaton.alphabetSize,
      .ofList (automaton.initial.toList.map partition.indexOf),
      .ofList (automaton.accepting.toList.map partition.indexOf), final⟩ : Draft) =
        (automaton.quotient partition).toDraft := by
    rw [transitions, ← Automaton.size_quotient partition,
      ← Automaton.alphabetSize_quotient partition]
    change Draft.mk _ _ (automaton.initial.map partition.indexOf)
      (automaton.accepting.map partition.indexOf) _ = _
    rw [← Automaton.initial_quotient, ← Automaton.accepting_quotient]
  rw [quotient, initial, ok_bind, accepting, ok_bind, folded, ok_bind, draft]
  exact expect_eq_ok_iff.mpr (Draft.build_eq_ok (automaton.quotient partition).valid)

/-- The checks let through what can be merged and nothing else. -/
theorem quotient_eq_ok_iff {merged : Automaton} :
    quotient automaton partition = .ok merged ↔
      Mergeable automaton partition ∧ merged = automaton.quotient partition := by
  constructor
  · intro merges
    obtain ⟨_, _, rest⟩ := bind_eq_ok_iff.mp merges
    obtain ⟨_, _, rest⟩ := bind_eq_ok_iff.mp rest
    obtain ⟨final, folded, _⟩ := bind_eq_ok_iff.mp rest
    rw [quotient_eq_of_foldlM folded, Except.ok.injEq] at merges
    exact ⟨mergeable_of_foldlM folded, merges.symm⟩
  · intro ⟨mergeable, same⟩
    have nothingYet (departure : Departure) (targets : StateSet)
        (found : (∅ : Transitions)[departure]? = some targets) :
        ∃ entry ∈ automaton.entries, Says partition entry departure targets := by
      simp at found
    obtain ⟨final, folded⟩ := mergeable.exists_foldlM (fun _ listed => listed) nothingYet
    rw [same]
    exact quotient_eq_of_foldlM folded

theorem mergeable_of_congruence (congruence : automaton.Congruence partition)
    (unambiguous : automaton.Unambiguous) : Mergeable automaton partition := by
  refine ⟨unambiguous, ?_⟩
  intro left right symbol leftTarget rightTarget leftMoves rightMoves together
  have agree := congruence.successors left (Automaton.source_lt_of_mem_targets leftMoves) right
    (Automaton.source_lt_of_mem_targets rightMoves) together symbol
  rw [unambiguous.successor?_eq_some_iff.mpr leftMoves,
    unambiguous.successor?_eq_some_iff.mpr rightMoves] at agree
  exact Option.some.inj agree

end Checked

end Acceptors
