import Acceptors.Proofs.Refinement

/-!
Contract: how a refinement numbers its blocks and stores their members.

Owns: the numbers of states and the first members of blocks along a refinement, and the
ascending order in which members are stored.
Does not own: which states end in one block.

A division leaves the first member of a block where it is and gives the next number to the
members that move. So the number of a state only grows, and a block is represented by one
state from its creation on.
-/

namespace Acceptors

variable {size : Nat} {Signature : Type} [DecidableEq Signature]
variable {signature : Partition size → Nat → Signature}

theorem alike_cons {view : Nat → Signature} {first : Nat} {rest : List Nat} :
    alike view (first :: rest) first = first :: alike view rest first := by
  simp [alike]

namespace Partition

variable {partition : Partition size}

/-! ## Representatives -/

/-- The state that represents a block. -/
def first? (partition : Partition size) (block : Nat) : Option Nat :=
  (partition.block? block).bind List.head?

theorem first?_eq_some_iff {block first : Nat} :
    partition.first? block = some first ↔
      ∃ rest, partition.block? block = some (first :: rest) := by
  simp only [first?, Option.bind_eq_some_iff, List.head?_eq_some_iff]
  constructor
  · intro ⟨_, found, rest, same⟩
    exact ⟨rest, same ▸ found⟩
  · intro ⟨rest, found⟩
    exact ⟨first :: rest, found, rest, rfl⟩

theorem first?_eq_some {block first : Nat} {rest : List Nat}
    (found : partition.block? block = some (first :: rest)) :
    partition.first? block = some first :=
  first?_eq_some_iff.mpr ⟨rest, found⟩

theorem lt_count_of_first? {block first : Nat} (leads : partition.first? block = some first) :
    block < partition.count := by
  obtain ⟨_, found⟩ := first?_eq_some_iff.mp leads
  exact lt_count_of_block? found

/-- A representative is a state of its block. -/
theorem Consistent.of_first? (consistent : partition.Consistent) {block first : Nat}
    (leads : partition.first? block = some first) :
    first < size ∧ partition.indexOf first = block := by
  obtain ⟨_, found⟩ := first?_eq_some_iff.mp leads
  exact (consistent.mem_iff_indexOf found).mp List.mem_cons_self

section DivideBy

variable {block first : Nat} {rest : List Nat}
variable (found : partition.block? block = some (first :: rest))
  (different : unlike (signature partition) (first :: rest) first ≠ [])

include found

/-- A division gives a representative to the new block and changes no other. -/
theorem first?_divideBy (other : Nat) :
    (partition.divideBy signature block first rest different).first? other =
      if other = partition.count then (unlike (signature partition) (first :: rest) first).head?
      else partition.first? other := by
  rw [first?, divideBy, block?_divide (lt_count_of_block? found)]
  by_cases last : other = partition.count
  · rw [if_pos last, if_pos last]
    rfl
  · rw [if_neg last, if_neg last]
    by_cases same : other = block
    · rw [if_pos same, same, first?_eq_some found, alike_cons]
      rfl
    · rw [if_neg same]
      rfl

end DivideBy

/-! ## Growing numbers -/

/-- No state gets a smaller number, and every block keeps its representative. -/
structure GrowsTo (earlier later : Partition size) : Prop where
  indexOf_le : ∀ state < size, earlier.indexOf state ≤ later.indexOf state
  first?_eq : ∀ block first, earlier.first? block = some first → later.first? block = some first

namespace GrowsTo

variable {earlier middle later : Partition size}

theorem refl (partition : Partition size) : partition.GrowsTo partition where
  indexOf_le := fun _ _ => Nat.le_refl _
  first?_eq := fun _ _ leads => leads

theorem trans (first : earlier.GrowsTo middle) (second : middle.GrowsTo later) :
    earlier.GrowsTo later where
  indexOf_le := fun state inside =>
    Nat.le_trans (first.indexOf_le state inside) (second.indexOf_le state inside)
  first?_eq := fun block state leads =>
    second.first?_eq block state (first.first?_eq block state leads)

end GrowsTo

theorem growsTo_divideBy {block first : Nat} {rest : List Nat}
    (found : partition.block? block = some (first :: rest))
    (different : unlike (signature partition) (first :: rest) first ≠ []) :
    partition.GrowsTo (partition.divideBy signature block first rest different) where
  indexOf_le := by
    intro state inside
    have below := partition.indexOf_lt inside
    rw [divideBy, indexOf_divide inside]
    split <;> omega
  first?_eq := by
    intro other state leads
    have below := lt_count_of_first? leads
    rw [first?_divideBy found different, if_neg (by omega)]
    exact leads

end Partition

theorem survives_growsTo (start : Partition size) : Survives signature start.GrowsTo :=
  fun _ _ _ _ different found grows =>
    grows.trans (Partition.growsTo_divideBy found different)

/-! ## Ascending members -/

/-- The members of every block are stored in ascending order. -/
def Partition.Ascending (partition : Partition size) : Prop :=
  ∀ members ∈ partition.blocks, members.Pairwise (· < ·)

/-- The first of ascending members is the least. -/
theorem Partition.Ascending.first_le {partition : Partition size} (ascending : partition.Ascending)
    {block first state : Nat} {rest : List Nat}
    (found : partition.block? block = some (first :: rest)) (belongs : state ∈ first :: rest) :
    first ≤ state := by
  have parts := List.pairwise_cons.mp (ascending _ (Array.mem_of_getElem? found))
  rcases List.mem_cons.mp belongs with same | later
  · omega
  · exact Nat.le_of_lt (parts.1 state later)

/-- The block of a state is represented by a state that is no greater. -/
theorem Partition.Ascending.exists_first? {partition : Partition size}
    (ascending : partition.Ascending) (consistent : partition.Consistent) {state : Nat}
    (inside : state < size) :
    ∃ first ≤ state, partition.first? (partition.indexOf state) = some first ∧
      first < size ∧ partition.indexOf first = partition.indexOf state := by
  obtain ⟨members, found, belongs⟩ := consistent.exists_block? inside
  cases members with
  | nil => exact absurd belongs List.not_mem_nil
  | cons first rest =>
      exact ⟨first, ascending.first_le found belongs, first?_eq_some found,
        (consistent.mem_iff_indexOf found).mp List.mem_cons_self⟩

theorem Partition.ascending_ofTest (size : Nat) (test : Nat → Bool) :
    (Partition.ofTest size test).Ascending := by
  intro members isBlock
  have listed := (Partition.mem_occupied.mp (List.mem_toArray.mp isBlock)).1
  simp only [List.mem_cons, List.not_mem_nil, or_false] at listed
  rcases listed with rfl | rfl <;> exact List.pairwise_lt_range.filter _

theorem survives_ascending : Survives signature Partition.Ascending := by
  intro partition block first rest different found ascending members isBlock
  have whole := ascending _ (Array.mem_of_getElem? found)
  rcases Array.mem_push.mp isBlock with earlier | last
  · rcases Array.mem_or_eq_of_mem_setIfInBounds earlier with unchanged | kept
    · exact ascending members unchanged
    · exact kept ▸ whole.filter _
  · exact last ▸ whole.filter _

end Acceptors
