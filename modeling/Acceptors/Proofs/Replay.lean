import Acceptors.Journal
import Acceptors.Proofs.Alternation
import Acceptors.Proofs.RefinementLoop
import Acceptors.Proofs.Safety
import Acceptors.Proofs.Splitting

/-!
Contract: the events of a refinement are enough to repeat it.

Owns: the replay of events on a partition, without any signature, and what every replayed
event does to the partition that the events before it lead to.
Does not own: the signatures that are noted beside the divisions, and the wording of events.

A replay only sees which members left which block, and keeps the others. A block number means
a block of the partition at that moment, which the events before have made; so it is one step
of the loop that is compared with one event, and an induction does the rest.
-/

namespace Acceptors

variable {size : Nat} {Signature : Type}

/-! ## Replay -/

namespace Division

/-- The cut that takes the listed members from those of the block. -/
def cutOf (division : Division Signature) (members : List Nat) : Partition.Cut :=
  ⟨division.block, members.filter fun state => state ∉ division.moved, division.moved⟩

/-- Takes the listed members from the block and appends them as a new one. -/
def replay (partition : Partition size) (division : Division Signature) :
    Except Partition.Fault (Partition size) :=
  match partition.block? division.block with
  | none => .error (.noSuchBlock division.block)
  | some members =>
      let cut := division.cutOf members
      partition.split cut.block cut.keep cut.off

/-- The division is a legal one of the partition, and the other partition is its result. -/
structure Applies (division : Division Signature) (before after : Partition size) : Prop where
  legal : ∃ members, before.block? division.block = some members ∧
    (division.cutOf members).Fits before ∧ (division.cutOf members).Divides before after
  replay_eq : replay before division = .ok after

end Division

/-- Divisions are replayed; other events leave the partition as it is. -/
def Event.replay (partition : Partition size) :
    Event → Except Partition.Fault (Partition size)
  | .blockDivided division => division.replay partition
  | _ => .ok partition

/-! ## Runs of divisions -/

/-- The divisions lead from the one partition to the other. -/
inductive Retraces : Partition size → List (Division Signature) → Partition size → Prop
  | nothing (partition : Partition size) : Retraces partition [] partition
  | further {start next final : Partition size} {division : Division Signature}
      {rest : List (Division Signature)} (applies : division.Applies start next)
      (retraces : Retraces next rest final) : Retraces start (division :: rest) final

namespace Retraces

variable {start middle final : Partition size} {divisions : List (Division Signature)}

theorem append {later : List (Division Signature)} (first : Retraces start divisions middle)
    (second : Retraces middle later final) : Retraces start (divisions ++ later) final := by
  induction first with
  | nothing => exact second
  | further applies _ inductionHypothesis => exact .further applies (inductionHypothesis second)

/-- Each of the divisions applies to the partition to which those before it lead. -/
theorem exists_applies {division : Division Signature} {before after : List (Division Signature)}
    (retraces : Retraces start (before ++ division :: after) final) :
    ∃ current next, Retraces start before current ∧ division.Applies current next := by
  induction before generalizing start with
  | nil =>
      cases retraces with
      | further applies _ => exact ⟨start, _, .nothing start, applies⟩
  | cons head tail inductionHypothesis =>
      cases retraces with
      | further applies rest =>
          obtain ⟨current, next, reaches, step⟩ := inductionHypothesis rest
          exact ⟨current, next, .further applies reaches, step⟩

end Retraces

section

variable [DecidableEq Signature] {signature : Partition size → Nat → Signature}

/-! ## One division -/

/-- The members that are not moved are those that look like the first one. -/
theorem filter_not_mem_unlike (view : Nat → Signature) (members : List Nat) (first : Nat) :
    members.filter (fun state => state ∉ unlike view members first) =
      alike view members first := by
  apply List.filter_congr
  intro state belongs
  rw [decide_eq_decide, mem_unlike_iff, and_iff_right belongs, Decidable.not_not]

theorem applies_divideBy {partition : Partition size} (consistent : partition.Consistent)
    {block first : Nat} {rest : List Nat}
    (found : partition.block? block = some (first :: rest))
    (different : unlike (signature partition) (first :: rest) first ≠ []) :
    Division.Applies
      ⟨block, unlike (signature partition) (first :: rest) first, signature partition first⟩
      partition (partition.divideBy signature block first rest different) := by
  have parts := alike_append_unlike_perm (signature partition) (first :: rest) first
  have fits : Partition.Cut.Fits ⟨block, alike (signature partition) (first :: rest) first,
      unlike (signature partition) (first :: rest) first⟩ partition :=
    ⟨alike_ne_nil, different, first :: rest, found, parts⟩
  refine ⟨⟨first :: rest, found, ?_⟩, ?_⟩
  · rw [Division.cutOf, filter_not_mem_unlike]
    exact ⟨fits, Partition.divides_divide consistent fits⟩
  · rw [Division.replay, found]
    dsimp only
    rw [Division.cutOf, filter_not_mem_unlike]
    exact Partition.split_eq_ok consistent found parts

/-! ## The loop -/

/-- The divisions that have been noted lead to the partition that has been reached. -/
theorem retraces_examine {start : Partition size} {progress : Progress size Signature}
    (consistent : progress.partition.Consistent)
    (retraces : Retraces start progress.divisions progress.partition) (block : Nat) :
    Retraces start (examine signature progress block).divisions
      (examine signature progress block).partition := by
  rcases examine_cases signature progress block with ⟨unchanged, _⟩ |
    ⟨first, rest, different, found, divided⟩
  · rw [unchanged]
    exact retraces
  · rw [divided]
    exact retraces.append (.further (applies_divideBy consistent found different) (.nothing _))

theorem retraces_foldl_examine {start : Partition size} {progress : Progress size Signature}
    (consistent : progress.partition.Consistent)
    (retraces : Retraces start progress.divisions progress.partition) (blocks : List Nat) :
    Retraces start (blocks.foldl (examine signature) progress).divisions
      (blocks.foldl (examine signature) progress).partition := by
  induction blocks generalizing progress with
  | nil => exact retraces
  | cons block rest inductionHypothesis =>
      exact inductionHypothesis (survives_consistent.examine consistent)
        (retraces_examine consistent retraces block)

theorem retraces_pass {partition : Partition size} (consistent : partition.Consistent) :
    Retraces partition (pass signature partition).divisions
      (pass signature partition).partition := by
  have started : (⟨partition, []⟩ : Progress size Signature).partition.Consistent := consistent
  exact retraces_foldl_examine started (.nothing partition) (List.range partition.count)

/-- The divisions of all passes lead from the given partition to the result. -/
theorem retraces_refine {partition : Partition size} (consistent : partition.Consistent) :
    Retraces partition (refine signature partition).divisions
      (refine signature partition).partition := by
  fun_induction refine signature partition with
  | case1 partition progress quiet =>
      have passed : Retraces partition progress.divisions progress.partition :=
        retraces_pass consistent
      rwa [List.isEmpty_iff.mp quiet] at passed
  | case2 partition progress divided later inductionHypothesis =>
      exact (retraces_pass consistent).append
        (inductionHypothesis (survives_consistent.pass consistent))

end

/-! ## The events -/

/-- A replay of the events succeeds and gives the partition to which the divisions lead. -/
theorem Retraces.foldlM_replay {start final : Partition size}
    {divisions : List (Division (List (Option Nat)))} (retraces : Retraces start divisions final) :
    (divisions.map .blockDivided).foldlM Event.replay start = .ok final := by
  induction retraces with
  | nothing => rfl
  | further applies _ inductionHypothesis =>
      rw [List.map_cons, List.foldlM_cons, Event.replay, applies.replay_eq, ok_bind]
      exact inductionHypothesis

/-- What the events of a refinement say of the partition that it starts from and of its result. -/
structure Event.Account (events : List Event) (start final : Partition size) : Prop where
  replayed : events.foldlM Event.replay start = .ok final
  /-- After all divisions, the last event gives the number of passes and of blocks. At every
  division, the events before it lead to a partition of which it is a legal one. -/
  divided : ∃ divisions passes,
    events = divisions.map .blockDivided ++ [.partitionStable passes final.count] ∧
    passes ≤ divisions.length + 1 ∧
    ∀ before division after, divisions = before ++ division :: after →
      ∃ current next, (before.map .blockDivided).foldlM Event.replay start = .ok current ∧
        division.Applies current next

theorem account_refine {start : Partition size} (consistent : start.Consistent)
    (signature : Partition size → Nat → List (Option Nat)) :
    Event.Account (refine signature start).events start (refine signature start).partition := by
  have retraces : Retraces start (refine signature start).divisions
      (refine signature start).partition := retraces_refine consistent
  constructor
  · rw [Refinement.events, List.foldlM_append, retraces.foldlM_replay]
    rfl
  · refine ⟨_, _, rfl, passes_refine_le signature start, fun before division after parts => ?_⟩
    rw [parts] at retraces
    obtain ⟨current, next, reaches, applies⟩ := retraces.exists_applies
    exact ⟨current, next, reaches.foldlM_replay, applies⟩

namespace Automaton

/-- The events of both partitions can be replayed on the accepting and the rejecting states,
empty blocks left out. -/
theorem partitionEvents_account (automaton : Automaton)
    (deterministic : automaton.isDeterministic = true) (comparison : Comparison) :
    ∃ start final,
      Partition.ofBlocks automaton.size [(List.range automaton.size).filter automaton.isAccepting,
        (List.range automaton.size).filter fun state => !automaton.isAccepting state] =
          .ok start ∧
      automaton.partitionBy comparison = .ok final ∧
      Event.Account (automaton.partitionEvents comparison) start final := by
  have unambiguous := isDeterministic_eq_true_iff.mp deterministic
  refine ⟨automaton.acceptancePartition, (automaton.refineBy comparison).partition,
    Partition.ofBlocks_filter automaton.size automaton.isAccepting,
    partitionBy_eq_ok unambiguous comparison, ?_⟩
  rw [partitionEvents, refinement, checkDeterministic_eq_ok_iff.mpr unambiguous, refineBy_eq]
  exact account_refine (Partition.consistent_ofTest _ _) _

/-- The last division is one of a block that the first one has made. -/
theorem partitionEvents_account_unevenClasses :
    unevenClasses.isDeterministic = true ∧
    (unevenClasses.partitionEvents .successors).map Event.message = [
      "splitting [3, 5] off block 0 with signature [Some(0)]",
      "splitting [2] off block 1 with signature [Some(0)]",
      "splitting [5] off block 2 with signature [Some(1)]",
      "partition refinement stabilized after 3 passes with 5 blocks"] ∧
    ∃ start final, Partition.ofBlocks 6 [[1, 3, 5], [0, 2, 4]] = .ok start ∧
      unevenClasses.partitionBy .successors = .ok final ∧
      Event.Account (unevenClasses.partitionEvents .successors) start final := by
  have deterministic : unevenClasses.isDeterministic = true := rfl
  have parts : [(List.range unevenClasses.size).filter unevenClasses.isAccepting,
      (List.range unevenClasses.size).filter fun state => !unevenClasses.isAccepting state] =
        [[1, 3, 5], [0, 2, 4]] := by
    decide +kernel
  obtain ⟨start, final, accepted, partitions, account⟩ :=
    partitionEvents_account unevenClasses deterministic .successors
  rw [parts] at accepted
  exact ⟨deterministic, by decide +kernel, start, final, accepted, partitions, account⟩

end Automaton

end Acceptors
