import Acceptors.Encoding
import Acceptors.Proofs.CheckedMerging
import Acceptors.Proofs.Worklist

/-!
Contract: no check but that of room for the table of successors fails on the way from an
automaton to a deterministic or a smaller one.

Owns: the ambiguity that is named when an automaton is not deterministic, the automata whose
table of successors finds room, and what the checked minimizations make of an automaton.
Does not own: the refinement loop, and the conditions under which states can be merged.

The two loops rely on two facts. The acceptance partition is consistent, and a refinement
of it ends in a congruence. Once the table of successors is made, all else that is asked room
for is no larger than what the table holds.
-/

namespace Acceptors

/-- The acceptance partition is made of blocks that leave no state out. -/
theorem Partition.ofBlocks_filter (size : Nat) (test : Nat → Bool) :
    ofBlocks size [(List.range size).filter test,
      (List.range size).filter fun state => !test state] = .ok (ofTest size test) := by
  have once : [(List.range size).filter test,
      (List.range size).filter fun state => !test state].flatten.Perm (List.range size) := by
    simpa using List.filter_append_perm test (List.range size)
  obtain ⟨covered, accepted⟩ := exists_ofBlocks_eq_ok once
  rw [accepted]
  rfl

namespace Automaton

variable {automaton : Automaton}

/-! ## The ambiguity that is named -/

/-- The departure has several targets. -/
def Ambiguous (automaton : Automaton) (departure : Departure) : Prop :=
  ∃ left ∈ automaton.targets departure.source departure.symbol,
    ∃ right ∈ automaton.targets departure.source departure.symbol, left ≠ right

/-- The first departure with several targets, and all of these in ascending order. -/
structure FirstAmbiguity (automaton : Automaton) (ambiguity : Ambiguity) : Prop where
  ambiguous : automaton.Ambiguous ⟨ambiguity.state, ambiguity.symbol⟩
  first : ∀ departure : Departure, departure.Precedes ⟨ambiguity.state, ambiguity.symbol⟩ →
    ¬automaton.Ambiguous departure
  mem_targets_iff : ∀ target, target ∈ ambiguity.targets ↔
    target ∈ automaton.targets ambiguity.state ambiguity.symbol
  ascending : ambiguity.targets.Pairwise (· < ·)

theorem unambiguous_iff_forall_not_ambiguous :
    automaton.Unambiguous ↔ ∀ departure, ¬automaton.Ambiguous departure := by
  constructor
  · intro unambiguous departure ⟨left, leftMoves, right, rightMoves, different⟩
    exact different (unambiguous _ _ left right leftMoves rightMoves)
  · intro none source symbol left right leftMoves rightMoves
    apply Decidable.byContradiction
    intro different
    exact none ⟨source, symbol⟩ ⟨left, leftMoves, right, rightMoves, different⟩

/-- A listed departure is ambiguous unless it has exactly one target. -/
theorem ambiguous_iff_of_listed {departure : Departure} {targets : StateSet}
    (listed : automaton.transitions[departure]? = some targets) :
    automaton.Ambiguous departure ↔ targets.size ≠ 1 := by
  rw [Ambiguous, Draft.mem_targets_of_transitions listed, ne_eq, StateSet.size_eq_one_iff]
  constructor
  · rintro ⟨left, leftBelongs, right, rightBelongs, different⟩ ⟨state, rfl⟩
    rw [StateSet.mem_singleton] at leftBelongs rightBelongs
    exact different (leftBelongs.trans rightBelongs.symm)
  · intro several
    obtain ⟨left, leftBelongs⟩ :=
      StateSet.ne_empty_iff.mp (automaton.valid.pruned departure targets listed)
    apply Decidable.byContradiction
    intro alone
    apply several
    refine ⟨left, StateSet.ext fun other => ?_⟩
    rw [StateSet.mem_singleton]
    constructor
    · intro belongs
      apply Decidable.byContradiction
      intro different
      exact alone ⟨other, belongs, left, leftBelongs, different⟩
    · intro same
      exact same ▸ leftBelongs

theorem Ambiguous.exists_listed {departure : Departure}
    (ambiguous : automaton.Ambiguous departure) :
    ∃ targets, automaton.transitions[departure]? = some targets := by
  obtain ⟨left, moves, _⟩ := ambiguous
  obtain ⟨targets, listed, _⟩ := mem_targets_iff.mp moves
  exact ⟨targets, listed⟩

theorem pairwise_entries :
    automaton.entries.Pairwise fun earlier later => earlier.1.Precedes later.1 :=
  Std.ExtTreeMap.ordered_keys_toList.imp fun less => (Departure.compare_eq_lt_iff _ _).mp less

/-- The search for an ambiguity has passed all that is listed before what it finds. -/
theorem size_eq_one_of_precedes {entry other : Departure × StateSet}
    (found : automaton.entries.find? (fun entry => entry.2.size != 1) = some entry)
    (listed : other ∈ automaton.entries) (precedes : other.1.Precedes entry.1) :
    other.2.size = 1 := by
  obtain ⟨_, before, after, entries_eq, single⟩ := List.find?_eq_some_iff_append.mp found
  have ordered := automaton.pairwise_entries
  rw [entries_eq] at listed ordered
  simpa using single other (mem_of_precedes Departure.Precedes.asymm ordered listed precedes)

theorem firstAmbiguity_of_ambiguity? {ambiguity : Ambiguity}
    (found : automaton.ambiguity? = some ambiguity) : automaton.FirstAmbiguity ambiguity := by
  obtain ⟨⟨departure, targets⟩, foundEntry, rfl⟩ := Option.map_eq_some_iff.mp found
  have several : targets.size ≠ 1 := by simpa using List.find?_some foundEntry
  have listed : automaton.transitions[departure]? = some targets :=
    Std.ExtTreeMap.mem_toList_iff_getElem?_eq_some.mp (List.mem_of_find?_eq_some foundEntry)
  refine ⟨(ambiguous_iff_of_listed listed).mpr several, ?_, ?_, targets.ascending⟩
  · intro earlier precedes ambiguous
    obtain ⟨others, othersListed⟩ := ambiguous.exists_listed
    apply (ambiguous_iff_of_listed othersListed).mp ambiguous
    exact size_eq_one_of_precedes foundEntry
      (Std.ExtTreeMap.mem_toList_iff_getElem?_eq_some.mpr othersListed) precedes
  · intro target
    rw [Draft.mem_targets_of_transitions listed]
    exact StateSet.mem_toList

theorem exists_firstAmbiguity {departure : Departure} (ambiguous : automaton.Ambiguous departure) :
    ∃ ambiguity, automaton.FirstAmbiguity ambiguity ∧
      automaton.checkDeterministic = .error ambiguity := by
  cases found : automaton.ambiguity? with
  | none =>
      exact absurd ambiguous
        (unambiguous_iff_forall_not_ambiguous.mp (unambiguous_iff.mpr found) departure)
  | some ambiguity =>
      exact ⟨ambiguity, firstAmbiguity_of_ambiguity? found, by rw [checkDeterministic, found]⟩

end Automaton

namespace Automaton

variable {automaton : Automaton}

/-! ## Room for the table of successors -/

/-- There is room for a row for every state and for an entry in it for every symbol. -/
structure TableFits (automaton : Automaton) : Prop where
  rows : automaton.size ≤ capacity listWidth
  entries : automaton.alphabetSize ≤ capacity optionWidth

/-- What the table asks for first of all that it has no room for. -/
inductive TableExceeds (automaton : Automaton) : Breach → Prop where
  | rows (exceeds : capacity listWidth < automaton.size) :
      TableExceeds automaton (.capacity listWidth automaton.size)
  | entries (fits : automaton.size ≤ capacity listWidth)
      (exceeds : capacity optionWidth < automaton.alphabetSize) :
      TableExceeds automaton (.capacity optionWidth automaton.alphabetSize)

theorem exists_tableExceeds (exceeds : ¬automaton.TableFits) :
    ∃ breach, automaton.TableExceeds breach := by
  by_cases rows : automaton.size ≤ capacity listWidth
  · have entries : ¬automaton.alphabetSize ≤ capacity optionWidth :=
      fun entries => exceeds ⟨rows, entries⟩
    exact ⟨_, .entries rows (Nat.not_le.mp entries)⟩
  · exact ⟨_, .rows (Nat.not_le.mp rows)⟩

end Automaton

namespace Checked

variable {automaton : Automaton}

theorem successorTable_eq_ok (fits : automaton.TableFits) :
    successorTable automaton = .ok (automaton.states.map automaton.row).toArray := by
  have row (state : Nat) (_ : state ∈ automaton.states) :
      successorRow automaton state = .ok (automaton.row state) := by
    rw [successorRow, reserve_eq_ok fits.entries, ok_bind]
  rw [successorTable, reserve_eq_ok fits.rows, ok_bind, mapM_eq_ok row, ok_bind]

/-- There is a state, so a row is asked for. -/
theorem successorTable_eq_error {breach : Breach} (exceeds : automaton.TableExceeds breach) :
    successorTable automaton = .error breach := by
  cases exceeds with
  | rows exceeds =>
      rw [successorTable, reserve_eq_error exceeds, error_bind]
  | entries fits exceeds =>
      have nonempty : automaton.states ≠ [] :=
        List.ne_nil_of_mem (List.mem_range.mpr automaton.valid.size_pos)
      have row (state : Nat) (_ : state ∈ automaton.states) :
          successorRow automaton state = .error (.capacity optionWidth automaton.alphabetSize) := by
        rw [successorRow, reserve_eq_error exceeds, error_bind]
      rw [successorTable, reserve_eq_ok fits, ok_bind, mapM_eq_error nonempty row, error_bind]

/-! ## Refinement -/

theorem computes_signature (fits : automaton.TableFits) (comparison : Comparison) :
    Computes (signature (automaton.states.map automaton.row).toArray comparison)
      (automaton.signature comparison : Partition automaton.size → Nat → List (Option Nat)) := by
  intro partition state inside
  have rowFound : (automaton.states.map automaton.row).toArray[state]? =
      some (automaton.row state) := by
    simp [Automaton.states, inside]
  rw [signature, rowFound, demand, ok_bind]
  cases comparison with
  | successors => rfl
  | classes =>
      have length_row : (automaton.row state).length = automaton.alphabetSize := by
        simp [Automaton.row, Automaton.symbols]
      rw [view, reserve_eq_ok (length_row ▸ fits.entries), ok_bind]
      apply mapM_eq_ok
      intro successor listed
      cases successor with
      | none => rfl
      | some target =>
          obtain ⟨symbol, _, moved⟩ := List.mem_map.mp listed
          dsimp only
          rw [blockOf_eq_ok_iff.mpr ⟨Automaton.lt_size_of_successor? moved, rfl⟩]
          rfl

/-- A partition takes less room than the rows of a table. -/
theorem acceptancePartition_eq_ok (fits : automaton.TableFits) :
    acceptancePartition automaton = .ok automaton.acceptancePartition := by
  have narrower : capacity listWidth ≤ capacity numberWidth := by decide
  rw [acceptancePartition, reserve_eq_ok (Nat.le_trans fits.rows narrower), ok_bind]
  exact expect_eq_ok_iff.mpr (Partition.ofBlocks_filter automaton.size automaton.isAccepting)

theorem partitionBy_of_refused {ambiguity : Ambiguity}
    (refused : automaton.checkDeterministic = .error ambiguity) (comparison : Comparison) :
    partitionBy automaton comparison = .ok (.error ambiguity) := by
  rw [partitionBy, refused]

theorem partitionBy_eq_ok (unambiguous : automaton.Unambiguous) (fits : automaton.TableFits)
    (comparison : Comparison) :
    partitionBy automaton comparison = .ok (.ok (automaton.refineBy comparison).partition) := by
  have refined := refine_eq_ok (computes_signature fits comparison)
    (Partition.consistent_ofTest automaton.size automaton.isAccepting).agrees
  rw [partitionBy, Automaton.checkDeterministic_eq_ok_iff.mpr unambiguous]
  dsimp only
  rw [successorTable_eq_ok fits, ok_bind, acceptancePartition_eq_ok fits, ok_bind,
    Automaton.acceptancePartition, refined, ok_bind, Automaton.refineBy_eq]
  rfl

theorem partitionBy_eq_error (unambiguous : automaton.Unambiguous) {breach : Breach}
    (exceeds : automaton.TableExceeds breach) (comparison : Comparison) :
    partitionBy automaton comparison = .error breach := by
  rw [partitionBy, Automaton.checkDeterministic_eq_ok_iff.mpr unambiguous]
  dsimp only
  rw [successorTable_eq_error exceeds, error_bind]

/-! ## Minimization -/

theorem minimizeBy_of_refused {ambiguity : Ambiguity}
    (refused : automaton.checkDeterministic = .error ambiguity) (comparison : Comparison) :
    minimizeBy automaton comparison = .ok (.error ambiguity) := by
  rw [minimizeBy, partitionBy_of_refused refused, ok_bind]

theorem minimizeBy_eq_ok (unambiguous : automaton.Unambiguous) (fits : automaton.TableFits)
    (comparison : Comparison) :
    minimizeBy automaton comparison =
      .ok (.ok (automaton.quotient (automaton.refineBy comparison).partition)) := by
  have mergeable := mergeable_of_congruence (automaton.congruence_refineBy comparison) unambiguous
  rw [minimizeBy, partitionBy_eq_ok unambiguous fits, ok_bind]
  dsimp only
  rw [quotient_eq_ok_iff.mpr ⟨mergeable, rfl⟩, ok_bind]

theorem minimizeBy_eq_error (unambiguous : automaton.Unambiguous) {breach : Breach}
    (exceeds : automaton.TableExceeds breach) (comparison : Comparison) :
    minimizeBy automaton comparison = .error breach := by
  rw [minimizeBy, partitionBy_eq_error unambiguous exceeds, error_bind]

end Checked

namespace Automaton

/-- The only check that fails on an automaton is that of room for the table of successors. The
loop of the subset construction finds a subset for every queued number and ends in a valid
automaton. Both refinements and both minimizations give the first ambiguity if there is one.
Otherwise they return what they return without checks, a partition and an automaton, if the
table fits, and stop at what it has no room for if it does not. -/
theorem transformations_breach_capacity_only (automaton : Automaton) :
    Worklist.EndsIn automaton automaton.subsetConstruction ∧
    ∀ comparison,
      ((∃ departure, automaton.Ambiguous departure) →
        ∃ ambiguity, automaton.FirstAmbiguity ambiguity ∧
          Checked.partitionBy automaton comparison = .ok (.error ambiguity) ∧
          Checked.minimizeBy automaton comparison = .ok (.error ambiguity) ∧
          automaton.partitionBy comparison = .error ambiguity ∧
          automaton.minimizeBy comparison = .error ambiguity) ∧
      ((∀ departure, ¬automaton.Ambiguous departure) →
        (automaton.TableFits → ∃ partition reduced,
          Checked.partitionBy automaton comparison = .ok (.ok partition) ∧
          Checked.minimizeBy automaton comparison = .ok (.ok reduced) ∧
          automaton.partitionBy comparison = .ok partition ∧
          automaton.minimizeBy comparison = .ok reduced) ∧
        (¬automaton.TableFits → ∃ breach, automaton.TableExceeds breach ∧
          Checked.partitionBy automaton comparison = .error breach ∧
          Checked.minimizeBy automaton comparison = .error breach)) := by
  refine ⟨Worklist.endsIn_subsetConstruction automaton, fun comparison => ⟨?_, ?_⟩⟩
  · intro ⟨departure, ambiguous⟩
    obtain ⟨ambiguity, first, refused⟩ := exists_firstAmbiguity ambiguous
    refine ⟨ambiguity, first, Checked.partitionBy_of_refused refused comparison,
      Checked.minimizeBy_of_refused refused comparison, ?_, ?_⟩
    · rw [partitionBy, refinement, refused]
      rfl
    · rw [minimizeBy, partitionBy, refinement, refused]
      rfl
  · intro single
    have unambiguous := unambiguous_iff_forall_not_ambiguous.mpr single
    constructor
    · intro fits
      exact ⟨_, _, Checked.partitionBy_eq_ok unambiguous fits comparison,
        Checked.minimizeBy_eq_ok unambiguous fits comparison,
        partitionBy_eq_ok unambiguous comparison, minimizeBy_eq_ok unambiguous comparison⟩
    · intro exceedsRoom
      obtain ⟨breach, exceeds⟩ := exists_tableExceeds exceedsRoom
      exact ⟨breach, exceeds, Checked.partitionBy_eq_error unambiguous exceeds comparison,
        Checked.minimizeBy_eq_error unambiguous exceeds comparison⟩

/-- One state is initial, no state has a transition, and there are very many states. -/
def vast : Automaton where
  toDraft := .ofEdges 1152921504606846976 1 (.ofList [0]) (.ofList []) []
  valid := Draft.valid_ofEdges (by decide) (by decide) (by decide) (by decide) (by decide)
    (by decide)

/-- A short text describes a deterministic automaton with more states than a table has rows.
Neither its partitions nor its minimizations are returned. -/
theorem vast_breaches_capacity :
    (Encoding.read "1152921504606846976\n1\n0\n\n").toOption = some vast ∧
      (∀ departure, ¬vast.Ambiguous departure) ∧
      ∀ comparison,
        Checked.partitionBy vast comparison =
          .error (.capacity listWidth 1152921504606846976) ∧
        Checked.minimizeBy vast comparison =
          .error (.capacity listWidth 1152921504606846976) := by
  have unambiguous : vast.Unambiguous := checkDeterministic_eq_ok_iff.mp rfl
  have exceeds : vast.TableExceeds (.capacity listWidth 1152921504606846976) :=
    .rows (by decide)
  exact ⟨by decide +kernel, unambiguous_iff_forall_not_ambiguous.mp unambiguous,
    fun comparison => ⟨Checked.partitionBy_eq_error unambiguous exceeds comparison,
      Checked.minimizeBy_eq_error unambiguous exceeds comparison⟩⟩

end Automaton

end Acceptors
