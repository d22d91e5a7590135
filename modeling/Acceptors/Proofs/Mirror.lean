import Acceptors.Proofs.Growth

/-!
Contract: two refinements that divide in step.

Owns: new names for states, partitions that match under new names, and the
match of the results of two refinements that start from matching partitions.
Does not own: the automata behind the two sets of states.

Several states may get one name, so the second partition may have fewer states, but its
blocks have the same numbers. Both refinements divide the same blocks at the same time if a
block and its match are represented by matching states. Members ascend, so this asks that
the representative of a block gets the least name in it (`Partition.LeastFirst`).
-/

namespace Acceptors

/-- New names for states that name every state of the new range. -/
structure Naming (size otherSize : Nat) where
  name : Nat → Nat
  name_lt : ∀ state < size, name state < otherSize
  exists_name_eq : ∀ other < otherSize, ∃ state < size, name state = other

variable {size otherSize : Nat} {naming : Naming size otherSize}

theorem Naming.any_range_eq (naming : Naming size otherSize) {test otherTest : Nat → Bool}
    (agree : ∀ state < size, otherTest (naming.name state) = test state) :
    (List.range otherSize).any otherTest = (List.range size).any test := by
  rw [Bool.eq_iff_iff]
  simp only [List.any_eq_true, List.mem_range]
  constructor
  · intro ⟨other, inside, passes⟩
    obtain ⟨state, below, rfl⟩ := naming.exists_name_eq other inside
    exact ⟨state, below, agree state below ▸ passes⟩
  · intro ⟨state, below, passes⟩
    exact ⟨naming.name state, naming.name_lt state below, (agree state below).trans passes⟩

/-- The representative of every block gets the least name in the block. -/
def Partition.LeastFirst (naming : Naming size otherSize) (partition : Partition size) : Prop :=
  ∀ state < size, ∀ first, partition.first? (partition.indexOf state) = some first →
    naming.name first ≤ naming.name state

/-- Every state lies in the block with the number of the block of its new name. -/
structure Mirrors (naming : Naming size otherSize) (left : Partition size)
    (right : Partition otherSize) : Prop where
  leftConsistent : left.Consistent
  rightConsistent : right.Consistent
  rightAscending : right.Ascending
  count_eq : left.count = right.count
  indexOf_name : ∀ state < size, right.indexOf (naming.name state) = left.indexOf state

namespace Mirrors

/-- Tests that agree under the new names make matching partitions. -/
theorem ofTest (naming : Naming size otherSize) {test otherTest : Nat → Bool}
    (agree : ∀ state < size, otherTest (naming.name state) = test state) :
    Mirrors naming (.ofTest size test) (.ofTest otherSize otherTest) where
  leftConsistent := Partition.consistent_ofTest size test
  rightConsistent := Partition.consistent_ofTest otherSize otherTest
  rightAscending := Partition.ascending_ofTest otherSize otherTest
  count_eq := by
    have fails (state : Nat) (inside : state < size) := congrArg Bool.not (agree state inside)
    rw [Partition.count_ofTest, Partition.count_ofTest, naming.any_range_eq agree,
      naming.any_range_eq fails]
  indexOf_name := by
    intro state inside
    rw [Partition.indexOf_ofTest inside, Partition.indexOf_ofTest (naming.name_lt state inside),
      agree state inside, naming.any_range_eq agree]

variable {left : Partition size} {right : Partition otherSize}

/-! ## Members of matching blocks -/

section Members

variable {block : Nat} {members others : List Nat} (mirrors : Mirrors naming left right)
  (found : left.block? block = some members) (otherFound : right.block? block = some others)

include mirrors found otherFound

theorem name_mem_iff {state : Nat} (inside : state < size) :
    naming.name state ∈ others ↔ state ∈ members := by
  rw [mirrors.rightConsistent.mem_iff_indexOf otherFound,
    mirrors.leftConsistent.mem_iff_indexOf found, mirrors.indexOf_name state inside]
  exact ⟨fun belongs => ⟨inside, belongs.2⟩,
    fun belongs => ⟨naming.name_lt state inside, belongs.2⟩⟩

theorem exists_of_mem {other : Nat} (belongs : other ∈ others) :
    ∃ state ∈ members, state < size ∧ naming.name state = other := by
  have otherInside := ((mirrors.rightConsistent.mem_iff_indexOf otherFound).mp belongs).1
  obtain ⟨state, inside, same⟩ := naming.exists_name_eq other otherInside
  have isMember := (mirrors.name_mem_iff found otherFound inside).mp (same ▸ belongs)
  exact ⟨state, isMember, inside, same⟩

end Members

/-- Matching blocks are represented by matching states. -/
theorem first_eq (mirrors : Mirrors naming left right) (least : left.LeastFirst naming)
    {block first other : Nat} {rest others : List Nat}
    (found : left.block? block = some (first :: rest))
    (otherFound : right.block? block = some (other :: others)) :
    other = naming.name first := by
  have firstInside := (mirrors.leftConsistent.of_first? (Partition.first?_eq_some found)).1
  have named := (mirrors.name_mem_iff found otherFound firstInside).mpr List.mem_cons_self
  have other_le := mirrors.rightAscending.first_le otherFound named
  obtain ⟨state, isMember, inside, same⟩ :=
    mirrors.exists_of_mem found otherFound List.mem_cons_self
  have index := ((mirrors.leftConsistent.mem_iff_indexOf found).mp isMember).2
  have first_le := least state inside first (index ▸ Partition.first?_eq_some found)
  omega

theorem exists_block? (mirrors : Mirrors naming left right) {block : Nat} {others : List Nat}
    (otherFound : right.block? block = some others) :
    ∃ members, left.block? block = some members := by
  have inside := Partition.lt_count_of_block? otherFound
  exact ⟨_, Partition.block?_eq_some (mirrors.count_eq ▸ inside)⟩

/-! ## Division in step -/

variable {Signature : Type} {signature : Partition size → Nat → Signature}
variable {otherSignature : Partition otherSize → Nat → Signature}

section Signatures

variable (mirrors : Mirrors naming left right)
  (agree : ∀ state < size, otherSignature right (naming.name state) = signature left state)

include mirrors agree

theorem uniformAt_right {block : Nat} (uniform : UniformAt signature left block) :
    UniformAt otherSignature right block := by
  intro others otherFound first firstListed second secondListed
  obtain ⟨members, found⟩ := mirrors.exists_block? otherFound
  obtain ⟨firstState, firstBelongs, firstInside, rfl⟩ :=
    mirrors.exists_of_mem found otherFound firstListed
  obtain ⟨secondState, secondBelongs, secondInside, rfl⟩ :=
    mirrors.exists_of_mem found otherFound secondListed
  rw [agree firstState firstInside, agree secondState secondInside]
  exact uniform members found firstState firstBelongs secondState secondBelongs

theorem uniformAt_left {block : Nat} (uniform : UniformAt otherSignature right block) :
    UniformAt signature left block := by
  intro members found first firstBelongs second secondBelongs
  have inside {state : Nat} (belongs : state ∈ members) : state < size :=
    ((mirrors.leftConsistent.mem_iff_indexOf found).mp belongs).1
  have otherFound := Partition.block?_eq_some
    (mirrors.count_eq ▸ Partition.lt_count_of_block? found)
  rw [← agree first (inside firstBelongs), ← agree second (inside secondBelongs)]
  exact uniform _ otherFound _
    ((mirrors.name_mem_iff found otherFound (inside firstBelongs)).mpr firstBelongs) _
    ((mirrors.name_mem_iff found otherFound (inside secondBelongs)).mpr secondBelongs)

theorem divideBy [DecidableEq Signature] {block first : Nat} {rest others : List Nat}
    (found : left.block? block = some (first :: rest))
    (otherFound : right.block? block = some (naming.name first :: others))
    (different : unlike (signature left) (first :: rest) first ≠ [])
    (otherDifferent : unlike (otherSignature right) (naming.name first :: others)
      (naming.name first) ≠ []) :
    Mirrors naming (left.divideBy signature block first rest different)
      (right.divideBy otherSignature block (naming.name first) others otherDifferent) where
  leftConsistent := survives_consistent _ _ _ _ different found mirrors.leftConsistent
  rightConsistent :=
    survives_consistent _ _ _ _ otherDifferent otherFound mirrors.rightConsistent
  rightAscending := survives_ascending _ _ _ _ otherDifferent otherFound mirrors.rightAscending
  count_eq := by
    rw [Partition.divideBy, Partition.divideBy, Partition.count_divide, Partition.count_divide,
      mirrors.count_eq]
  indexOf_name := by
    intro state inside
    have firstInside := (mirrors.leftConsistent.of_first? (Partition.first?_eq_some found)).1
    have moved : naming.name state ∈ unlike (otherSignature right)
          (naming.name first :: others) (naming.name first) ↔
        state ∈ unlike (signature left) (first :: rest) first := by
      rw [mem_unlike_iff, mem_unlike_iff, mirrors.name_mem_iff found otherFound inside,
        agree state inside, agree first firstInside]
    rw [Partition.divideBy, Partition.divideBy, Partition.indexOf_divide inside,
      Partition.indexOf_divide (naming.name_lt state inside), mirrors.indexOf_name state inside,
      mirrors.count_eq]
    simp only [moved]

end Signatures

/-- Partitions that match, reached by equally many divisions. -/
def InStep (naming : Naming size otherSize) (left : Progress size Signature)
    (right : Progress otherSize Signature) : Prop :=
  Mirrors naming left.partition right.partition ∧
    left.divisions.length = right.divisions.length

theorem InStep.isEmpty_divisions_eq {left : Progress size Signature}
    {right : Progress otherSize Signature} (inStep : InStep naming left right) :
    left.divisions.isEmpty = right.divisions.isEmpty := by
  rw [Bool.eq_iff_iff, List.isEmpty_iff_length_eq_zero, List.isEmpty_iff_length_eq_zero, inStep.2]

variable [DecidableEq Signature]

/-- A block and its match are divided together or left as they are together. -/
theorem inStep_examine {left : Progress size Signature} {right : Progress otherSize Signature}
    (inStep : InStep naming left right)
    (agree : ∀ state < size, otherSignature right.partition (naming.name state) =
      signature left.partition state)
    (least : left.partition.LeastFirst naming) (block : Nat) :
    InStep naming (examine signature left block) (examine otherSignature right block) := by
  have mirrors := inStep.1
  rcases examine_cases signature left block with ⟨unchanged, uniform⟩ |
    ⟨first, rest, different, found, divided⟩
  · rcases examine_cases otherSignature right block with ⟨otherUnchanged, _⟩ |
      ⟨_, _, otherDifferent, otherFound, _⟩
    · rw [unchanged, otherUnchanged]
      exact inStep
    · exact absurd (mirrors.uniformAt_right agree uniform)
        (not_uniformAt_of_unlike otherFound otherDifferent)
  · rcases examine_cases otherSignature right block with ⟨_, otherUniform⟩ |
      ⟨other, others, otherDifferent, otherFound, otherDivided⟩
    · exact absurd (mirrors.uniformAt_left agree otherUniform)
        (not_uniformAt_of_unlike found different)
    · have representative := mirrors.first_eq least found otherFound
      subst representative
      rw [divided, otherDivided]
      refine ⟨mirrors.divideBy agree found otherFound different otherDifferent, ?_⟩
      rw [List.length_append, List.length_append, inStep.2]
      rfl

section Run

variable {property : Partition size → Prop} (survives : Survives signature property)
  (agree : ∀ left right, Mirrors naming left right → ∀ state < size,
    otherSignature right (naming.name state) = signature left state)

include survives agree

/-- Examinations on the way to a final partition stay in step. -/
theorem inStep_foldl {final : Partition size}
    (least : ∀ partition, property partition → partition.GrowsTo final →
      partition.LeastFirst naming)
    (blocks : List Nat) {left : Progress size Signature} {right : Progress otherSize Signature}
    (holds : property left.partition)
    (grows : (blocks.foldl (examine signature) left).partition.GrowsTo final)
    (inStep : InStep naming left right) :
    InStep naming (blocks.foldl (examine signature) left)
      (blocks.foldl (examine otherSignature) right) := by
  induction blocks generalizing left right with
  | nil => exact inStep
  | cons head tail inductionHypothesis =>
      have later : left.partition.GrowsTo
          ((head :: tail).foldl (examine signature) left).partition :=
        (survives_growsTo left.partition).foldl_examine (head :: tail) (.refl left.partition)
      have leastNow := least left.partition holds (later.trans grows)
      exact inductionHypothesis (survives.examine holds) grows
        (inStep_examine inStep (agree _ _ inStep.1) leastNow head)

variable {left : Partition size} {right : Partition otherSize}

theorem inStep_pass {final : Partition size}
    (least : ∀ partition, property partition → partition.GrowsTo final →
      partition.LeastFirst naming)
    (holds : property left) (grows : (pass signature left).partition.GrowsTo final)
    (mirrors : Mirrors naming left right) :
    InStep naming (pass signature left) (pass otherSignature right) := by
  unfold pass at grows ⊢
  rw [← mirrors.count_eq]
  exact inStep_foldl survives agree least (List.range left.count) holds grows ⟨mirrors, rfl⟩

/-- Refinements that start from matching partitions end in matching partitions, if on the
way of the first the representative of every block has the least name. -/
theorem refine (holds : property left)
    (least : ∀ partition, property partition →
      partition.GrowsTo (Acceptors.refine signature left).partition →
        partition.LeastFirst naming)
    (mirrors : Mirrors naming left right) :
    Mirrors naming (Acceptors.refine signature left).partition
      (Acceptors.refine otherSignature right).partition := by
  fun_induction Acceptors.refine signature left generalizing right with
  | case1 partition progress =>
      rename_i quiet
      have inStep := inStep_pass survives agree least holds (.refl _) mirrors
      have otherQuiet : (pass otherSignature right).divisions.isEmpty :=
        inStep.isEmpty_divisions_eq ▸ quiet
      rw [Acceptors.refine, if_pos otherQuiet]
      exact inStep.1
  | case2 partition progress divided later =>
      rename_i inductionHypothesis
      have grows : (pass signature partition).partition.GrowsTo
          (Acceptors.refine signature (pass signature partition).partition).partition :=
        (survives_growsTo (pass signature partition).partition).refine (.refl _)
      have inStep := inStep_pass survives agree least holds grows mirrors
      have otherDivided : ¬(pass otherSignature right).divisions.isEmpty :=
        inStep.isEmpty_divisions_eq ▸ divided
      rw [Acceptors.refine, if_neg otherDivided]
      exact inductionHypothesis (survives.pass holds) least inStep.1

end Run

end Mirrors

end Acceptors
