import Acceptors.Proofs.CheckedRefinement

/-!
Contract: the refinement loop is correct for every signature.

Owns: the moments of the loop, the number of its passes, what a partition has in common with
all later ones, and the properties of the result.
Does not own: the signatures that automata give to their states, and replays of the divisions.

A signature may be read from the partition while a pass changes it, so a block that looks alike
when it is examined need not look alike when the pass ends. Only the last pass settles that,
because it changes nothing. All else is a matter of one division, which takes members from a
block but never the first one, and leaves them in their order.
-/

namespace Acceptors

variable {size : Nat} {Signature : Type}

namespace Partition

variable {partition : Partition size}

/-! ## What stays from a partition to a later one -/

/-- No block is lost and none gains members. Its members keep their order, the first one stays
in front, and the members of a new block come from one block in the order they had there. -/
structure Continues (later earlier : Partition size) : Prop where
  kept : ∀ block members, earlier.block? block = some members →
    ∃ remaining, later.block? block = some remaining ∧
      remaining.Sublist members ∧ remaining.head? = members.head?
  came : ∀ block members, later.block? block = some members →
    ∃ source others, earlier.block? source = some others ∧ members.Sublist others

theorem Continues.refl (partition : Partition size) : partition.Continues partition where
  kept := fun _ members found => ⟨members, found, List.Sublist.refl members, rfl⟩
  came := fun block members found => ⟨block, members, found, List.Sublist.refl members⟩

theorem Continues.trans {earliest earlier later : Partition size}
    (second : later.Continues earlier) (first : earlier.Continues earliest) :
    later.Continues earliest where
  kept := by
    intro block members found
    obtain ⟨remaining, stillFound, sublist, head⟩ := first.kept block members found
    obtain ⟨last, lastFound, lastSublist, lastHead⟩ := second.kept block remaining stillFound
    exact ⟨last, lastFound, lastSublist.trans sublist, lastHead.trans head⟩
  came := by
    intro block members found
    obtain ⟨middle, others, middleFound, sublist⟩ := second.came block members found
    obtain ⟨source, all, sourceFound, more⟩ := first.came middle others middleFound
    exact ⟨source, all, sourceFound, sublist.trans more⟩

/-- States that lie together lay together before. -/
theorem Continues.sameBlock? {earlier later : Partition size} (continues : later.Continues earlier)
    (earlierAgrees : earlier.Agrees) (laterAgrees : later.Agrees) {left right : Nat}
    (together : later.sameBlock? left right = some true) :
    earlier.sameBlock? left right = some true := by
  obtain ⟨leftInside, rightInside, same⟩ := sameBlock?_eq_some_true_iff.mp together
  obtain ⟨members, found, leftBelongs⟩ := laterAgrees.exists_block? leftInside
  have rightBelongs := (laterAgrees.mem_iff_indexOf found).mpr ⟨rightInside, same.symm⟩
  obtain ⟨source, others, sourceFound, sublist⟩ := continues.came _ members found
  have cameFrom {state : Nat} (belongs : state ∈ members) : earlier.indexOf state = source :=
    ((earlierAgrees.mem_iff_indexOf sourceFound).mp (sublist.subset belongs)).2
  exact sameBlock?_eq_some_true_iff.mpr
    ⟨leftInside, rightInside, (cameFrom leftBelongs).trans (cameFrom rightBelongs).symm⟩

end Partition

variable [DecidableEq Signature] {signature : Partition size → Nat → Signature}

/-! ## One division -/

theorem head?_alike {view : Nat → Signature} {first : Nat} {rest : List Nat} :
    (alike view (first :: rest) first).head? = some first := by
  simp [alike]

theorem continues_divideBy {partition : Partition size} {block first : Nat} {rest : List Nat}
    (found : partition.block? block = some (first :: rest))
    (different : unlike (signature partition) (first :: rest) first ≠ []) :
    (partition.divideBy signature block first rest different).Continues partition := by
  have inside := Partition.lt_count_of_block? found
  constructor
  · intro other members otherFound
    have earlier := Partition.lt_count_of_block? otherFound
    rw [Partition.divideBy, Partition.block?_divide inside, if_neg (Nat.ne_of_lt earlier)]
    by_cases same : other = block
    · rw [same, found] at otherFound
      cases otherFound
      rw [if_pos same]
      exact ⟨_, rfl, List.filter_sublist, head?_alike⟩
    · rw [if_neg same]
      exact ⟨members, otherFound, List.Sublist.refl members, rfl⟩
  · intro other members otherFound
    rw [Partition.divideBy, Partition.block?_divide inside] at otherFound
    split at otherFound
    · cases otherFound
      exact ⟨block, first :: rest, found, List.filter_sublist⟩
    · split at otherFound
      · cases otherFound
        exact ⟨block, first :: rest, found, List.filter_sublist⟩
      · exact ⟨other, members, otherFound, List.Sublist.refl members⟩

theorem continues_examine (progress : Progress size Signature) (block : Nat) :
    (examine signature progress block).partition.Continues progress.partition := by
  rcases examine_cases signature progress block with ⟨unchanged, _⟩ |
    ⟨first, rest, different, found, divided⟩
  · rw [unchanged]
    exact .refl progress.partition
  · rw [divided]
    exact continues_divideBy found different

theorem continues_foldl_examine (blocks : List Nat) (progress : Progress size Signature) :
    (blocks.foldl (examine signature) progress).partition.Continues progress.partition := by
  induction blocks generalizing progress with
  | nil => exact .refl progress.partition
  | cons block rest inductionHypothesis =>
      exact (inductionHypothesis (examine signature progress block)).trans
        (continues_examine progress block)

/-! ## The moments of the loop -/

/-- The partition after a number of passes. -/
def afterPasses (signature : Partition size → Nat → Signature) :
    Nat → Partition size → Partition size
  | 0, partition => partition
  | count + 1, partition => afterPasses signature count (pass signature partition).partition

theorem afterPasses_add (first second : Nat) (partition : Partition size) :
    afterPasses signature (first + second) partition =
      afterPasses signature second (afterPasses signature first partition) := by
  induction first generalizing partition with
  | zero => rw [Nat.zero_add, afterPasses]
  | succ first inductionHypothesis =>
      rw [Nat.succ_add, afterPasses, inductionHypothesis, afterPasses]

theorem continues_afterPasses (count : Nat) (partition : Partition size) :
    (afterPasses signature count partition).Continues partition := by
  induction count generalizing partition with
  | zero => exact .refl partition
  | succ count inductionHypothesis =>
      exact (inductionHypothesis (pass signature partition).partition).trans
        (continues_foldl_examine _ ⟨partition, []⟩)

/-- A moment of the loop: how many passes are complete, and how many blocks have been examined
since then. -/
structure Moment where
  passes : Nat
  blocks : Nat
deriving DecidableEq, Repr

namespace Moment

/-- The partition at a moment of the loop. -/
def partition (moment : Moment) (signature : Partition size → Nat → Signature)
    (start : Partition size) : Partition size :=
  ((List.range moment.blocks).foldl (examine signature)
    ⟨afterPasses signature moment.passes start, []⟩).partition

/-- A pass examines the blocks that exist when it begins and no others. -/
def Occurs (moment : Moment) (signature : Partition size → Nat → Signature)
    (start : Partition size) : Prop :=
  moment.blocks ≤ (afterPasses signature moment.passes start).count

/-- The one moment is not after the other. -/
def NotAfter (earlier later : Moment) : Prop :=
  earlier.passes < later.passes ∨
    earlier.passes = later.passes ∧ earlier.blocks ≤ later.blocks

/-- Within a pass, the partition goes on from the blocks examined earlier. -/
theorem continues_of_blocks_le {blocks more : Nat} (le : blocks ≤ more) (passes : Nat)
    (start : Partition size) :
    (partition ⟨passes, more⟩ signature start).Continues
      (partition ⟨passes, blocks⟩ signature start) := by
  obtain ⟨further, rfl⟩ := Nat.exists_eq_add_of_le le
  rw [partition, partition, List.range_add, List.foldl_append]
  exact continues_foldl_examine _ _

/-- A complete pass has examined every block. -/
theorem partition_succ (passes : Nat) (start : Partition size) :
    afterPasses signature (passes + 1) start =
      partition ⟨passes, (afterPasses signature passes start).count⟩ signature start := by
  rw [afterPasses_add]
  rfl

theorem continues {earlier later : Moment} {start : Partition size}
    (occurs : earlier.Occurs signature start) (notAfter : earlier.NotAfter later) :
    (later.partition signature start).Continues (earlier.partition signature start) := by
  rcases notAfter with fewer | ⟨same, le⟩
  · obtain ⟨further, passes_eq⟩ := Nat.exists_eq_add_of_le fewer
    have begun : (later.partition signature start).Continues
        (afterPasses signature later.passes start) := continues_foldl_examine _ ⟨_, []⟩
    have passed : (afterPasses signature later.passes start).Continues
        (afterPasses signature (earlier.passes + 1) start) := by
      rw [passes_eq, afterPasses_add]
      exact continues_afterPasses further _
    rw [partition_succ] at passed
    exact (begun.trans passed).trans (continues_of_blocks_le occurs earlier.passes start)
  · obtain ⟨passes, blocks⟩ := earlier
    obtain ⟨_, more⟩ := later
    cases same
    exact continues_of_blocks_le le passes start

end Moment

/-! ## The end of the loop -/

/-- The loop ends after this number of passes: the last pass divides no block, and every pass
before it divides one. -/
structure EndsAfter (signature : Partition size → Nat → Signature) (start : Partition size)
    (passes : Nat) (final : Partition size) : Prop where
  divides : ∀ count, count + 1 < passes →
    (pass signature (afterPasses signature count start)).divisions ≠ []
  quiet : ∃ count, passes = count + 1 ∧
    (pass signature (afterPasses signature count start)).divisions = []
  final_eq : final = afterPasses signature passes start

theorem endsAfter_refine (signature : Partition size → Nat → Signature) (start : Partition size) :
    EndsAfter signature start (refine signature start).passes
      (refine signature start).partition := by
  fun_induction refine signature start with
  | case1 partition progress quiet =>
      refine ⟨fun count early => ?_, ⟨0, rfl, List.isEmpty_iff.mp quiet⟩, rfl⟩
      exact absurd early (Nat.not_lt.mpr (Nat.le_add_left 1 count))
  | case2 partition progress divided later inductionHypothesis =>
      refine ⟨fun count early => ?_, ?_, inductionHypothesis.final_eq⟩
      · cases count with
        | zero => exact fun quiet => divided (List.isEmpty_iff.mpr quiet)
        | succ count => exact inductionHypothesis.divides count (Nat.lt_of_succ_lt_succ early)
      · obtain ⟨count, passes_eq, quiet⟩ := inductionHypothesis.quiet
        exact ⟨count + 1, congrArg (· + 1) passes_eq, quiet⟩

/-- Every division adds a block. -/
theorem count_refine (signature : Partition size → Nat → Signature) (start : Partition size) :
    (refine signature start).partition.count =
      start.count + (refine signature start).divisions.length := by
  fun_induction refine signature start with
  | case1 partition progress quiet =>
      have accounts := (memberCount_pass signature partition).2
      rwa [List.isEmpty_iff.mp quiet] at accounts
  | case2 partition progress divided later inductionHypothesis =>
      have accounts := (memberCount_pass signature partition).2
      rw [inductionHypothesis, accounts, List.length_append, Nat.add_assoc]

/-- Every pass but the last divides a block. -/
theorem passes_refine_le (signature : Partition size → Nat → Signature) (start : Partition size) :
    (refine signature start).passes ≤ (refine signature start).divisions.length + 1 := by
  fun_induction refine signature start with
  | case1 partition progress quiet => exact Nat.le_refl 1
  | case2 partition progress divided later inductionHypothesis =>
      have some : 0 < progress.divisions.length :=
        List.length_pos_iff.mpr fun none => divided (List.isEmpty_iff.mpr none)
      have rest : later.passes ≤ later.divisions.length + 1 := inductionHypothesis
      show later.passes + 1 ≤ (progress.divisions ++ later.divisions).length + 1
      rw [List.length_append]
      omega

/-! ## The result -/

/-- What the loop promises for a signature and the partition that it starts from. -/
structure Refinement.Correct (refined : Refinement size Signature)
    (signature : Partition size → Nat → Signature) (start : Partition size) : Prop where
  /-- The loop ends, and with this partition. -/
  ends : EndsAfter signature start refined.passes refined.partition
  /-- There is at most one pass more than there are new blocks. -/
  passes_le : refined.passes + start.count ≤ refined.partition.count + 1
  /-- No index, no block without members and no division stops the loop. -/
  unbreached : Checked.refine (fun partition state => .ok (signature partition state)) start =
    .ok refined.partition
  agrees : refined.partition.Agrees
  consistent : start.Consistent → refined.partition.Consistent
  /-- States that lie together in the end lay together at the start. -/
  finer : ∀ left right, refined.partition.sameBlock? left right = some true →
    start.sameBlock? left right = some true
  /-- Members of a block have equal signatures, read from the final partition. -/
  uniform : ∀ block, UniformAt signature refined.partition block
  /-- From any moment on, blocks lose members at most, in order and never the first one. -/
  continues : ∀ earlier later : Moment, earlier.Occurs signature start →
    earlier.NotAfter later →
      (later.partition signature start).Continues (earlier.partition signature start)

/-- The loop is correct for every signature, which may depend on the partition, and for every
partition whose two tables agree. -/
theorem refine_correct (signature : Partition size → Nat → Signature) {start : Partition size}
    (agrees : start.Agrees) : (refine signature start).Correct signature start := by
  have ends := endsAfter_refine signature start
  have finalAgrees : (refine signature start).partition.Agrees := survives_agrees.refine agrees
  have onward : (refine signature start).partition.Continues start := by
    rw [ends.final_eq]
    exact continues_afterPasses _ start
  have count_eq := count_refine signature start
  have passes_le := passes_refine_le signature start
  exact {
    ends := ends
    passes_le := by omega
    unbreached := Checked.refine_eq_ok (fun _ _ _ => rfl) agrees
    agrees := finalAgrees
    consistent := fun consistent => survives_consistent.refine consistent
    finer := fun _ _ together => onward.sameBlock? agrees finalAgrees together
    uniform := uniform_refine start
    continues := fun _ _ occurs notAfter => Moment.continues occurs notAfter }

/-- Three states and, apart from them, the last one. -/
def lastApart : Partition 4 := .ofTest 4 (· == 3)

/-- The block of the next state. -/
def nextBlock (partition : Partition 4) (state : Nat) : Nat := partition.indexOf (state + 1)

/-- The second pass divides what still looked alike in the first one. -/
theorem refine_nextBlock_correct :
    lastApart.Agrees ∧ (refine nextBlock lastApart).Correct nextBlock lastApart ∧
      (refine nextBlock lastApart).passes = 3 ∧
      (refine nextBlock lastApart).partition.blocks = #[[3], [0], [2], [1]] := by
  have agrees : lastApart.Agrees := (Partition.consistent_ofTest 4 (· == 3)).agrees
  exact ⟨agrees, refine_correct nextBlock agrees, by decide +kernel, by decide +kernel⟩

end Acceptors
