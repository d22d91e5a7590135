import Acceptors.Proofs.Stabilization
import Mathlib.Data.Fintype.EquivFin

/-!
Contract: repeated raw minimization of automata without cycles.

Owns: the transitions of an automaton as a graph, automata whose graph has no cycle, and
the end of their repeated raw minimization.
Does not own: that the sizes stop shrinking, and what the canonical minimization returns.

Raw minimization merges states with the very same successors. Where it merges nothing and
there is no cycle, states with the same outcomes are equal: so are their successors, by
induction along the transitions. On a cycle this induction has nowhere to start.
-/

namespace Acceptors

namespace Automaton

variable {automaton : Automaton}

/-! ## The graph of the transitions -/

/-- Some symbol leads from a state to the next. -/
def Steps (automaton : Automaton) (state next : Nat) : Prop :=
  ∃ symbol, next ∈ automaton.targets state symbol

/-- A path of one or more transitions leads to the later state from the earlier one. -/
def Beyond (automaton : Automaton) (later earlier : Nat) : Prop :=
  Relation.TransGen automaton.Steps earlier later

/-- No path leads from a state back to it. -/
def Acyclic (automaton : Automaton) : Prop :=
  ∀ state, ¬automaton.Beyond state state

theorem Beyond.lt_size {later earlier : Nat} (path : automaton.Beyond later earlier) :
    later < automaton.size := by
  cases path with
  | single moves => exact lt_size_of_mem_targets moves.choose_spec
  | tail _ moves => exact lt_size_of_mem_targets moves.choose_spec

/-- Paths in an acyclic automaton end, because there are finitely many states. -/
theorem Acyclic.wellFounded (acyclic : automaton.Acyclic) : WellFounded automaton.Beyond := by
  have inRange : WellFounded fun later earlier : Fin automaton.size =>
      automaton.Beyond later earlier := by
    have : IsTrans (Fin automaton.size) fun later earlier => automaton.Beyond later earlier :=
      ⟨fun _ _ _ first second => second.trans first⟩
    have : Std.Irrefl fun later earlier : Fin automaton.size => automaton.Beyond later earlier :=
      ⟨fun state => acyclic state⟩
    exact Finite.wellFounded_of_trans_of_irrefl _
  have accessible (state : Fin automaton.size) : Acc automaton.Beyond state := by
    induction state using inRange.induction with
    | _ state inductionHypothesis =>
        exact ⟨_, fun later path => inductionHypothesis ⟨later, path.lt_size⟩ path⟩
  exact ⟨fun _ => ⟨_, fun later path => accessible ⟨later, path.lt_size⟩⟩⟩

/-- Transitions that all lead to greater states make no cycle. -/
theorem acyclic_of_lt (ascends : ∀ state next, automaton.Steps state next → state < next) :
    automaton.Acyclic := by
  have less {later earlier : Nat} (path : automaton.Beyond later earlier) : earlier < later := by
    induction path with
    | single moves => exact ascends _ _ moves
    | tail _ moves inductionHypothesis =>
        exact Nat.lt_trans inductionHypothesis (ascends _ _ moves)
  exact fun state cycle => Nat.lt_irrefl state (less cycle)

/-! ## Merged states -/

namespace Congruence

variable {partition : Partition automaton.size} (congruence : automaton.Congruence partition)
  (unambiguous : automaton.Unambiguous)

include congruence unambiguous

theorem exists_steps {state block : Nat} (inside : state < automaton.size)
    (moves : (automaton.quotient partition).Steps (partition.indexOf state) block) :
    ∃ next, automaton.Steps state next ∧ partition.indexOf next = block := by
  obtain ⟨symbol, target⟩ := moves
  have found := (congruence.unambiguous_quotient unambiguous).successor?_eq_some_iff.mpr target
  rw [congruence.successor?_quotient unambiguous inside] at found
  obtain ⟨next, moved, index⟩ := Option.map_eq_some_iff.mp found
  exact ⟨next, ⟨symbol, mem_targets_of_successor? moved⟩, index⟩

/-- From every member of a block, a path of blocks is followed by a path of states. -/
theorem exists_beyond {state block : Nat} (inside : state < automaton.size)
    (path : (automaton.quotient partition).Beyond block (partition.indexOf state)) :
    ∃ last, automaton.Beyond last state ∧ partition.indexOf last = block := by
  induction path with
  | single moves =>
      obtain ⟨next, moved, index⟩ := congruence.exists_steps unambiguous inside moves
      exact ⟨next, .single moved, index⟩
  | tail _ moves inductionHypothesis =>
      obtain ⟨middle, earlier, rfl⟩ := inductionHypothesis
      obtain ⟨next, moved, index⟩ := congruence.exists_steps unambiguous earlier.lt_size moves
      exact ⟨next, earlier.tail moved, index⟩

/-- Merging makes no cycle. A cycle of blocks would lead from each member of a block to
another one, without end. -/
theorem acyclic_quotient (acyclic : automaton.Acyclic) :
    (automaton.quotient partition).Acyclic := by
  intro block cycle
  have noMember (state : Nat) (inside : state < automaton.size) :
      partition.indexOf state ≠ block := by
    induction state using acyclic.wellFounded.induction with
    | _ state inductionHypothesis =>
        rintro rfl
        obtain ⟨last, path, index⟩ := congruence.exists_beyond unambiguous inside cycle
        exact inductionHypothesis last path path.lt_size index
  have inside : block < partition.count := size_quotient partition ▸ cycle.lt_size
  obtain ⟨state, below, index⟩ := congruence.consistent.exists_indexOf_eq inside
  exact noMember state below index

end Congruence

theorem acyclic_rawQuotient (unambiguous : automaton.Unambiguous) (acyclic : automaton.Acyclic) :
    automaton.rawQuotient.Acyclic :=
  (automaton.congruence_refineBy .successors).acyclic_quotient unambiguous acyclic

/-! ## Equal states -/

/-- The raw partition puts states together that agree on acceptance and on all successors. -/
theorem indexOf_eq_of_row_eq {left right : Nat} (leftInside : left < automaton.size)
    (rightInside : right < automaton.size)
    (accepting : automaton.isAccepting left = automaton.isAccepting right)
    (rows : automaton.row left = automaton.row right) :
    (automaton.refineBy .successors).partition.indexOf left =
      (automaton.refineBy .successors).partition.indexOf right := by
  have survives : Survives (automaton.signature .successors)
      fun partition : Partition automaton.size => partition.Consistent ∧
        partition.Joins fun left right => automaton.isAccepting left = automaton.isAccepting right ∧
          automaton.row left = automaton.row right :=
    survives_joins fun _ _ _ _ same => same.2
  have joined := (survives.refine ⟨Partition.consistent_ofTest _ automaton.isAccepting,
    fun _ leftInside _ rightInside same =>
      (Partition.indexOf_ofTest_eq_iff leftInside rightInside).mpr same.1⟩).2
  rw [refineBy_eq]
  exact joined left leftInside right rightInside ⟨accepting, rows⟩

/-- An acyclic automaton of which raw minimization merges no states has no two states with the
same outcomes. -/
theorem Acyclic.reduced (acyclic : automaton.Acyclic)
    (full : automaton.size ≤ automaton.rawQuotient.size) : automaton.Reduced := by
  intro left
  induction left using acyclic.wellFounded.induction with
  | _ left inductionHypothesis =>
      intro leftInside right rightInside same
      have rows : automaton.row left = automaton.row right := by
        rw [row, row, List.map_inj_left]
        intro symbol _
        rcases same.successors symbol with ⟨leftStops, rightStops⟩ |
          ⟨leftNext, rightNext, leftMoves, rightMoves, sameNext⟩
        · rw [leftStops, rightStops]
        · have further : automaton.Beyond leftNext left :=
            .single ⟨symbol, mem_targets_of_successor? leftMoves⟩
          have equal := inductionHypothesis leftNext further further.lt_size rightNext
            (lt_size_of_successor? rightMoves) sameNext
          rw [leftMoves, rightMoves, equal]
      have consistent := (automaton.congruence_refineBy .successors).consistent
      rw [rawQuotient, size_quotient] at full
      exact consistent.eq_of_indexOf_eq full leftInside rightInside
        (indexOf_eq_of_row_eq leftInside rightInside same.isAccepting_eq rows)

/-! ## The classes of the canonical minimization -/

/-- The number of classes of states with the same outcomes. -/
def classCount (automaton : Automaton) : Nat :=
  (automaton.refineBy .classes).partition.count

theorem classCount_le (automaton : Automaton) : automaton.classCount ≤ automaton.size :=
  (automaton.congruence_refineBy .classes).consistent.count_le

theorem Reduced.size_le_classCount (reduced : automaton.Reduced)
    (unambiguous : automaton.Unambiguous) : automaton.size ≤ automaton.classCount := by
  apply Partition.size_le_count
  intro left leftInside right rightInside together
  exact reduced left leftInside right rightInside
    ((indexOf_refineBy_classes_eq_iff unambiguous leftInside rightInside).mp together)

/-- The classes that are left are those there were, as both have the same canonical
minimization. -/
theorem classCount_rawQuotient (unambiguous : automaton.Unambiguous) :
    automaton.rawQuotient.classCount = automaton.classCount := by
  have same : automaton.rawQuotient.minimizeCanonical = automaton.minimizeCanonical :=
    (automaton.congruence_refineBy .successors).minimizeCanonical_quotient unambiguous
      survives_intermediate intermediate_acceptancePartition
      fun _ intermediate _ => intermediate.leastFirst unambiguous
  rw [minimizeCanonical, minimizeCanonical, minimizeBy_eq_ok unambiguous,
    minimizeBy_eq_ok (unambiguous_rawQuotient unambiguous)] at same
  have sizes := congrArg (fun merged : Automaton => merged.size) (Except.ok.inj same)
  rwa [size_quotient, size_quotient] at sizes

/-! ## Repeated raw minimization -/

/-- The automaton after some rounds of raw minimization. -/
def afterRounds (automaton : Automaton) (count : Nat) : Automaton :=
  rawQuotient^[count] automaton

theorem afterRounds_succ (automaton : Automaton) (count : Nat) :
    automaton.afterRounds (count + 1) = (automaton.afterRounds count).rawQuotient :=
  Function.iterate_succ_apply' _ _ _

theorem size_afterRounds_succ_le (automaton : Automaton) (count : Nat) :
    (automaton.afterRounds (count + 1)).size ≤ (automaton.afterRounds count).size := by
  rw [afterRounds_succ]
  exact size_rawQuotient_le _

section

variable (unambiguous : automaton.Unambiguous) (acyclic : automaton.Acyclic)

include unambiguous

theorem unambiguous_afterRounds (count : Nat) : (automaton.afterRounds count).Unambiguous := by
  induction count with
  | zero => exact unambiguous
  | succ count inductionHypothesis =>
      rw [afterRounds_succ]
      exact unambiguous_rawQuotient inductionHypothesis

theorem classCount_afterRounds (count : Nat) :
    (automaton.afterRounds count).classCount = automaton.classCount := by
  induction count with
  | zero => rfl
  | succ count inductionHypothesis =>
      rw [afterRounds_succ, classCount_rawQuotient (unambiguous_afterRounds unambiguous count),
        inductionHypothesis]

include acyclic

theorem acyclic_afterRounds (count : Nat) : (automaton.afterRounds count).Acyclic := by
  induction count with
  | zero => exact acyclic
  | succ count inductionHypothesis =>
      rw [afterRounds_succ]
      exact acyclic_rawQuotient (unambiguous_afterRounds unambiguous count) inductionHypothesis

/-- Once a round merges nothing, there are as many states as classes from then on. -/
theorem size_afterRounds_eq {count later : Nat}
    (full : (automaton.afterRounds count).size ≤ (automaton.afterRounds (count + 1)).size)
    (follows : count ≤ later) :
    (automaton.afterRounds later).size = (automaton.afterRounds later).classCount := by
  have stillUnambiguous := unambiguous_afterRounds unambiguous count
  rw [afterRounds_succ] at full
  have reduced := (acyclic_afterRounds unambiguous acyclic count).reduced full
  have shrinking : Antitone fun count => (automaton.afterRounds count).size :=
    antitone_nat_of_succ_le automaton.size_afterRounds_succ_le
  have few := reduced.size_le_classCount stillUnambiguous
  rw [classCount_afterRounds unambiguous] at few
  refine Nat.le_antisymm ?_ (classCount_le _)
  rw [classCount_afterRounds unambiguous]
  exact Nat.le_trans (shrinking follows) few

end

/-- Raw minimization of an acyclic automaton, repeated until the size no longer shrinks, ends
in an automaton with as many states as the canonical minimization returns. The canonical
partition of that automaton merges nothing any more. -/
theorem minimize_settles_in_canonical_size (automaton : Automaton)
    (deterministic : automaton.checkDeterministic = .ok ()) (acyclic : automaton.Acyclic) :
    ∃ (chain : Nat → Automaton) (reduced : Automaton), chain 0 = automaton ∧
      (∀ count, (chain count).minimize = .ok (chain (count + 1))) ∧
      automaton.minimizeCanonical = .ok reduced ∧
      (∃ count < automaton.size, (chain count).size ≤ (chain (count + 1)).size) ∧
      ∀ count, (chain count).size ≤ (chain (count + 1)).size → ∀ later ≥ count,
        (chain later).size = reduced.size ∧
          ∃ partition, (chain later).partitionBy .classes = .ok partition ∧
            ∀ members ∈ partition.blocks, ∃ state, members = [state] := by
  have unambiguous := checkDeterministic_eq_ok_iff.mp deterministic
  have remains := unambiguous_afterRounds unambiguous
  obtain ⟨still, early, same⟩ := @exists_lt_succ_eq
    (fun count => (automaton.afterRounds count).size)
    (fun count => (automaton.afterRounds count).valid.size_pos) automaton.size_afterRounds_succ_le
  refine ⟨automaton.afterRounds, _, rfl, fun count => ?_, minimizeBy_eq_ok unambiguous .classes,
    ⟨still, early, Nat.le_of_eq same.symm⟩, fun count full later follows => ?_⟩
  · rw [afterRounds_succ]
    exact minimize_eq_ok (remains count)
  · have size_eq := size_afterRounds_eq unambiguous acyclic full follows
    refine ⟨?_, _, partitionBy_eq_ok (remains later) .classes, fun members listed => ?_⟩
    · rw [size_quotient, size_eq]
      exact classCount_afterRounds unambiguous later
    · have consistent := ((automaton.afterRounds later).congruence_refineBy .classes).consistent
      exact consistent.exists_eq_singleton (Nat.le_of_eq size_eq) listed

theorem acyclic_twins : twins.Acyclic := by
  apply acyclic_of_lt
  intro state next ⟨symbol, moves⟩
  have ascends : ∀ edge ∈ twins.edges, edge.source < edge.target := by decide +kernel
  exact ascends ⟨state, symbol, next⟩ (mem_edges_iff.mpr moves)

theorem minimize_twins_settles :
    twins.checkDeterministic = .ok () ∧ twins.Acyclic ∧
    ∃ (chain : Nat → Automaton) (reduced : Automaton), chain 0 = twins ∧
      (∀ count, (chain count).minimize = .ok (chain (count + 1))) ∧
      twins.minimizeCanonical = .ok reduced ∧
      (∃ count < twins.size, (chain count).size ≤ (chain (count + 1)).size) ∧
      ∀ count, (chain count).size ≤ (chain (count + 1)).size → ∀ later ≥ count,
        (chain later).size = reduced.size ∧
          ∃ partition, (chain later).partitionBy .classes = .ok partition ∧
            ∀ members ∈ partition.blocks, ∃ state, members = [state] :=
  ⟨rfl, acyclic_twins, minimize_settles_in_canonical_size twins rfl acyclic_twins⟩

/-- On a cycle, raw minimization may find nothing to merge where the canonical one does. -/
example : ∃ automaton : Automaton, automaton.checkDeterministic = .ok () ∧
    automaton.rawQuotient.size = automaton.size ∧ automaton.classCount < automaton.size := by
  refine ⟨⟨.ofEdges 2 1 (.ofList [0]) ∅ [⟨0, 0, 1⟩, ⟨1, 0, 0⟩], Draft.valid_ofEdges (by decide)
    (by decide) (by decide) (by decide) (by decide) (by decide)⟩, rfl, ?_, ?_⟩
  · decide +kernel
  · decide +kernel

end Automaton

end Acceptors
