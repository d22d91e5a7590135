import Acceptors.Proofs.Consistency
import Acceptors.Refinement

/-!
Contract: what a refinement keeps and when it stops.

Owns: the induction over the divisions of a refinement, the consistency of its
result, and the equality of signatures within each final block.
Does not own: which signatures states have, and what they mean.

One lemma says what examining a block does (`examine_cases`). What every division
keeps, a whole refinement keeps (`Survives.refine`); and as the last pass divides
nothing, its signatures are those of the final partition (`uniform_refine`).
-/

namespace Acceptors

variable {size : Nat} {Signature : Type} [DecidableEq Signature]
variable {signature : Partition size → Nat → Signature}

theorem mem_unlike_iff {view : Nat → Signature} {members : List Nat} {first state : Nat} :
    state ∈ unlike view members first ↔ state ∈ members ∧ view state ≠ view first := by
  simp [unlike]

theorem mem_alike_iff {view : Nat → Signature} {members : List Nat} {first state : Nat} :
    state ∈ alike view members first ↔ state ∈ members ∧ view state = view first := by
  simp [alike]

/-- The two parts of a block rearrange its members. -/
theorem alike_append_unlike_perm (view : Nat → Signature) (members : List Nat) (first : Nat) :
    (alike view members first ++ unlike view members first).Perm members := by
  have parts := List.filter_append_perm (fun state => decide (view state = view first)) members
  simpa [alike, unlike] using parts

/-! ## What divisions keep -/

/-- The partition after a block has been divided by the signature of its first member. -/
def Partition.divideBy (signature : Partition size → Nat → Signature) (partition : Partition size)
    (block first : Nat) (rest : List Nat)
    (different : unlike (signature partition) (first :: rest) first ≠ []) : Partition size :=
  partition.divide block (alike (signature partition) (first :: rest) first)
    (unlike (signature partition) (first :: rest) first) alike_ne_nil different

/-- The property passes to the partition after any division by signatures. -/
def Survives (signature : Partition size → Nat → Signature)
    (property : Partition size → Prop) : Prop :=
  ∀ (partition : Partition size) (block first : Nat) (rest : List Nat)
    (different : unlike (signature partition) (first :: rest) first ≠ []),
    partition.block? block = some (first :: rest) → property partition →
      property (partition.divideBy signature block first rest different)

/-- Members of one block have one signature. -/
def UniformAt (signature : Partition size → Nat → Signature) (partition : Partition size)
    (block : Nat) : Prop :=
  ∀ members, partition.block? block = some members → ∀ left ∈ members, ∀ right ∈ members,
    signature partition left = signature partition right

theorem not_uniformAt_of_unlike {partition : Partition size} {block first : Nat} {rest : List Nat}
    (found : partition.block? block = some (first :: rest))
    (different : unlike (signature partition) (first :: rest) first ≠ []) :
    ¬UniformAt signature partition block := by
  intro uniform
  obtain ⟨state, moved⟩ := List.exists_mem_of_ne_nil _ different
  have parts := mem_unlike_iff.mp moved
  exact parts.2 (uniform _ found state parts.1 first List.mem_cons_self)

/-- Examining a block either leaves all as it is, because the members look alike, or
divides the block and notes it. -/
theorem examine_cases (signature : Partition size → Nat → Signature)
    (progress : Progress size Signature) (block : Nat) :
    examine signature progress block = progress ∧
        UniformAt signature progress.partition block ∨
      ∃ (first : Nat) (rest : List Nat)
        (different : unlike (signature progress.partition) (first :: rest) first ≠ []),
        progress.partition.block? block = some (first :: rest) ∧
          examine signature progress block =
            { partition := progress.partition.divideBy signature block first rest different
              divisions := progress.divisions ++
                [⟨block, unlike (signature progress.partition) (first :: rest) first,
                  signature progress.partition first⟩] } := by
  unfold examine
  split
  · rename_i missing
    refine Or.inl ⟨rfl, fun members found => ?_⟩
    rw [missing] at found
    cases found
  · rename_i empty
    exact absurd rfl (Partition.ne_nil_of_block? empty)
  · rename_i first rest found
    dsimp only
    split
    · rename_i same
      refine Or.inl ⟨rfl, fun members listed => ?_⟩
      rw [found] at listed
      cases listed
      have asFirst {state : Nat} (belongs : state ∈ first :: rest) :
          signature progress.partition state = signature progress.partition first := by
        apply Decidable.byContradiction
        intro different
        have moved := mem_unlike_iff.mpr ⟨belongs, different⟩
        rw [same] at moved
        exact List.not_mem_nil moved
      intro left leftBelongs right rightBelongs
      rw [asFirst leftBelongs, asFirst rightBelongs]
    · rename_i different
      exact Or.inr ⟨first, rest, different, found, rfl⟩

section Survival

variable {property : Partition size → Prop} (survives : Survives signature property)

include survives

theorem Survives.examine {progress : Progress size Signature} {block : Nat}
    (holds : property progress.partition) :
    property (examine signature progress block).partition := by
  rcases examine_cases signature progress block with ⟨unchanged, _⟩ |
    ⟨first, rest, different, found, divided⟩
  · rw [unchanged]
    exact holds
  · rw [divided]
    exact survives progress.partition block first rest different found holds

theorem Survives.foldl_examine {progress : Progress size Signature} (blocks : List Nat)
    (holds : property progress.partition) :
    property (blocks.foldl (Acceptors.examine signature) progress).partition := by
  induction blocks generalizing progress with
  | nil => exact holds
  | cons head tail inductionHypothesis => exact inductionHypothesis (survives.examine holds)

theorem Survives.pass {partition : Partition size} (holds : property partition) :
    property (pass signature partition).partition :=
  survives.foldl_examine (List.range partition.count) holds

/-- What survives every division holds of the result of a refinement. -/
theorem Survives.refine {partition : Partition size} (holds : property partition) :
    property (refine signature partition).partition := by
  fun_induction Acceptors.refine signature partition with
  | case1 partition progress quiet => exact survives.pass holds
  | case2 partition progress divided later inductionHypothesis =>
      exact inductionHypothesis (survives.pass holds)

end Survival

/-- Divisions by signatures keep the tables in agreement, also where a block repeats a member. -/
theorem survives_agrees : Survives signature Partition.Agrees := by
  intro partition block first rest different found agrees
  apply agrees.divide found (alike_append_unlike_perm _ _ _)
  intro state stays moves
  exact (mem_unlike_iff.mp moves).2 (mem_alike_iff.mp stays).2

/-- Divisions by signatures keep a partition consistent. -/
theorem survives_consistent : Survives signature Partition.Consistent := by
  intro partition block first rest different found consistent
  exact consistent.divide found (alike_append_unlike_perm _ _ _)

/-- Related states lie together. -/
def Partition.Joins (partition : Partition size) (related : Nat → Nat → Prop) : Prop :=
  ∀ left < size, ∀ right < size, related left right →
    partition.indexOf left = partition.indexOf right

/-- No division separates related states if they have equal signatures as long as all related
states lie together. -/
theorem survives_joins {related : Nat → Nat → Prop}
    (signature_eq : ∀ partition : Partition size, partition.Joins related →
      ∀ left right, related left right → signature partition left = signature partition right) :
    Survives signature fun partition => partition.Consistent ∧ partition.Joins related := by
  intro partition block first rest different found ⟨consistent, joins⟩
  refine ⟨survives_consistent partition block first rest different found consistent, ?_⟩
  intro left leftInside right rightInside relation
  have together := joins left leftInside right rightInside relation
  have moved : left ∈ unlike (signature partition) (first :: rest) first ↔
      right ∈ unlike (signature partition) (first :: rest) first := by
    rw [mem_unlike_iff, mem_unlike_iff, consistent.mem_iff_indexOf found,
      consistent.mem_iff_indexOf found, signature_eq partition joins left right relation, together]
    simp only [leftInside, rightInside]
  exact (Partition.indexOf_divide_eq_iff consistent found
    (fun _ moves => (mem_unlike_iff.mp moves).1) leftInside rightInside).mpr ⟨together, moved⟩

/-! ## The last pass -/

theorem length_divisions_le (blocks : List Nat) (progress : Progress size Signature) :
    progress.divisions.length ≤
      (blocks.foldl (examine signature) progress).divisions.length := by
  induction blocks generalizing progress with
  | nil => exact Nat.le_refl _
  | cons head tail inductionHypothesis =>
      refine Nat.le_trans ?_ (inductionHypothesis (examine signature progress head))
      rcases examine_cases signature progress head with ⟨unchanged, _⟩ |
        ⟨first, rest, different, found, divided⟩
      · simp only [unchanged, Nat.le_refl]
      · rw [divided, List.length_append]
        exact Nat.le_add_right _ _

/-- A stretch of examinations that notes nothing has found every block uniform. -/
theorem uniformAt_of_quiet (blocks : List Nat) (progress : Progress size Signature)
    (quiet : (blocks.foldl (examine signature) progress).divisions.length =
      progress.divisions.length) :
    blocks.foldl (examine signature) progress = progress ∧
      ∀ block ∈ blocks, UniformAt signature progress.partition block := by
  induction blocks generalizing progress with
  | nil => exact ⟨rfl, fun _ listed => absurd listed List.not_mem_nil⟩
  | cons head tail inductionHypothesis =>
      rw [List.foldl_cons] at quiet ⊢
      rcases examine_cases signature progress head with ⟨unchanged, uniform⟩ |
        ⟨first, rest, different, found, divided⟩
      · rw [unchanged] at quiet ⊢
        obtain ⟨same, others⟩ := inductionHypothesis progress quiet
        refine ⟨same, fun block listed => ?_⟩
        rcases List.mem_cons.mp listed with rfl | later
        · exact uniform
        · exact others block later
      · -- A division is noted at once, and no later step takes the note back.
        have grown := @length_divisions_le _ _ _ signature tail (examine signature progress head)
        have noted : (examine signature progress head).divisions.length =
            progress.divisions.length + 1 := by
          rw [divided, List.length_append]
          rfl
        omega

/-- In the result of a refinement the members of each block have equal signatures, read
from that very result. -/
theorem uniform_refine (partition : Partition size) (block : Nat) :
    UniformAt signature (refine signature partition).partition block := by
  fun_induction refine signature partition with
  | case1 partition progress quiet =>
      have noted : (pass signature partition).divisions = [] := List.isEmpty_iff.mp quiet
      obtain ⟨same, uniform⟩ := uniformAt_of_quiet (List.range partition.count) ⟨partition, []⟩
        (congrArg List.length noted)
      have unchanged : (pass signature partition).partition = partition :=
        congrArg Progress.partition same
      change UniformAt signature (pass signature partition).partition block
      rw [unchanged]
      intro members found
      exact uniform block (List.mem_range.mpr (Partition.lt_count_of_block? found)) members found
  | case2 partition progress divided later inductionHypothesis => exact inductionHypothesis

end Acceptors
