import Acceptors.Checked
import Acceptors.Proofs.Refinement

/-!
Contract: the checked refinement of a partition whose tables agree meets no breach.

Owns: the agreement of the checked refinement with the plain one, step by step, for any
signature that can be computed of the states in range.
Does not own: the signatures that the minimizations use.

The agreement of the tables carries the proof. Then only states in range are listed, so their
signatures can be computed; blocks have a first member; and the two parts of a block have
together as many members as the block.
-/

namespace Acceptors

namespace Checked

variable {size : Nat} {Signature : Type} [DecidableEq Signature]
variable {checked : Partition size → Nat → Checked Signature}
variable {plain : Partition size → Nat → Signature}

/-- The checked signature of a state in range is the plain one. -/
def Computes (checked : Partition size → Nat → Checked Signature)
    (plain : Partition size → Nat → Signature) : Prop :=
  ∀ partition state, state < size → checked partition state = .ok (plain partition state)

theorem blockOf_eq_ok_iff {partition : Partition size} {state block : Nat} :
    blockOf partition state = .ok block ↔ state < size ∧ partition.indexOf state = block := by
  rw [blockOf, demand_eq_ok_iff, Partition.blockOf?_eq_some_iff]

theorem separate_eq_ok {checkedView : Nat → Checked Signature} {view : Nat → Signature}
    {members : List Nat} (computes : ∀ state ∈ members, checkedView state = .ok (view state))
    (first : Nat) :
    separate checkedView (view first) members =
      .ok (alike view members first, unlike view members first) := by
  induction members with
  | nil => rfl
  | cons head tail inductionHypothesis =>
      have rest := inductionHypothesis fun state listed =>
        computes state (List.mem_cons_of_mem _ listed)
      rw [separate, computes head List.mem_cons_self, ok_bind, rest, ok_bind]
      by_cases same : view head = view first
      · simp [alike, unlike, same]
      · simp [alike, unlike, same]

/-- The division by signatures is one that the checks allow. -/
theorem split_divideBy {partition : Partition size} (agrees : partition.Agrees)
    {block first : Nat} {rest : List Nat} (found : partition.block? block = some (first :: rest))
    (different : unlike (plain partition) (first :: rest) first ≠ []) :
    partition.split block (alike (plain partition) (first :: rest) first)
      (unlike (plain partition) (first :: rest) first) =
        .ok (partition.divideBy plain block first rest different) :=
  agrees.split_eq_ok found (alike_append_unlike_perm _ _ _)

/-- The partition of a pass so far, and whether a division has been noted. -/
def sweepOf (progress : Progress size Signature) : Sweep size :=
  ⟨progress.partition, !progress.divisions.isEmpty⟩

theorem count_le_count_examine (progress : Progress size Signature) (block : Nat) :
    progress.partition.count ≤ (Acceptors.examine plain progress block).partition.count := by
  rcases examine_cases plain progress block with ⟨unchanged, _⟩ | ⟨_, _, _, _, divided⟩
  · simp only [unchanged, Nat.le_refl]
  · rw [divided, Partition.divideBy, Partition.count_divide]
    exact Nat.le_succ _

section

variable (computes : Computes checked plain)

include computes

theorem examine_eq_ok {progress : Progress size Signature}
    (agrees : progress.partition.Agrees) {block : Nat}
    (inside : block < progress.partition.count) :
    examine checked (sweepOf progress) block =
      .ok (sweepOf (Acceptors.examine plain progress block)) := by
  have found := Partition.block?_eq_some inside
  obtain ⟨first, rest, members_eq⟩ :=
    List.exists_cons_of_ne_nil (Partition.ne_nil_of_block? found)
  rw [members_eq] at found
  have computesMember (state : Nat) (belongs : state ∈ first :: rest) :
      checked progress.partition state = .ok (plain progress.partition state) :=
    computes _ state ((agrees.mem_iff_indexOf found).mp belongs).1
  have examined : examine checked (sweepOf progress) block =
      if (unlike (plain progress.partition) (first :: rest) first).isEmpty then
        .ok (sweepOf progress)
      else
        expect .partition (progress.partition.split block
          (alike (plain progress.partition) (first :: rest) first)
          (unlike (plain progress.partition) (first :: rest) first)) >>= fun divided =>
            .ok ⟨divided, true⟩ := by
    simp only [examine, sweepOf, found, demand, List.head?_cons, ok_bind,
      computesMember first List.mem_cons_self, separate_eq_ok computesMember first]
  rw [examined]
  rcases examine_cases plain progress block with ⟨unchanged, uniform⟩ |
    ⟨other, others, different, alsoFound, divided⟩
  · have nothing : unlike (plain progress.partition) (first :: rest) first = [] :=
      Decidable.byContradiction fun different => not_uniformAt_of_unlike found different uniform
    rw [nothing, unchanged]
    rfl
  · rw [found] at alsoFound
    cases alsoFound
    rw [if_neg (by simpa using different), split_divideBy agrees found different, divided]
    simp [expect, sweepOf]

theorem foldlM_examine_eq_ok {progress : Progress size Signature}
    (agrees : progress.partition.Agrees) {blocks : List Nat}
    (inside : ∀ block ∈ blocks, block < progress.partition.count) :
    blocks.foldlM (examine checked) (sweepOf progress) =
      .ok (sweepOf (blocks.foldl (Acceptors.examine plain) progress)) := by
  induction blocks generalizing progress with
  | nil => rfl
  | cons head tail inductionHypothesis =>
      rw [List.foldlM_cons, examine_eq_ok computes agrees (inside head List.mem_cons_self),
        ok_bind, List.foldl_cons]
      apply inductionHypothesis (survives_agrees.examine agrees)
      intro block listed
      exact Nat.lt_of_lt_of_le (inside block (List.mem_cons_of_mem _ listed))
        (count_le_count_examine progress head)

theorem pass_eq_ok {partition : Partition size} (agrees : partition.Agrees) :
    pass checked partition = .ok (sweepOf (Acceptors.pass plain partition)) := by
  have started : (⟨partition, []⟩ : Progress size Signature).partition.Agrees := agrees
  exact foldlM_examine_eq_ok computes started fun _ listed => List.mem_range.mp listed

/-- No breach stops the refinement of a partition whose tables agree, and its result is that of the
refinement without checks. -/
theorem refine_eq_ok {partition : Partition size} (agrees : partition.Agrees) :
    refine checked partition = .ok (Acceptors.refine plain partition).partition := by
  fun_induction Acceptors.refine plain partition with
  | case1 partition progress quiet =>
      rw [refine_eq, pass_eq_ok computes agrees, ok_bind]
      have unchanged : (sweepOf progress).changed = false := by simp [sweepOf, quiet]
      rw [if_neg (by rw [unchanged]; simp)]
      rfl
  | case2 partition progress divided later inductionHypothesis =>
      rw [refine_eq, pass_eq_ok computes agrees, ok_bind]
      have changed : (sweepOf progress).changed = true := by simpa [sweepOf] using divided
      rw [if_pos changed]
      exact inductionHypothesis (survives_agrees.pass agrees)

end

end Checked

end Acceptors
