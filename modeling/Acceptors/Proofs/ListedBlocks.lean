import Acceptors.Proofs.Splitting
import Mathlib.Algebra.GroupWithZero.Nat
import Mathlib.Data.List.Perm.Subperm

/-!
Contract: which listed blocks are accepted, and when the result is a partition.

Owns: the states that listed blocks must hold, the block of a state that several blocks list,
and the condition under which the two tables agree.
Does not own: divisions of a block, and partitions by a test.

Acceptance asks that the states in range are listed and no others, not how often. A state that
is listed again stays a member of the earlier blocks, while the table of states keeps only the
last of them. So the tables agree just for blocks that list no state twice.
-/

namespace Acceptors

namespace Partition

variable {size : Nat} {partition : Partition size} {blocks : List (List Nat)}

/-- The state is a member of the block. -/
def Lists (partition : Partition size) (block state : Nat) : Prop :=
  ∃ members, partition.block? block = some members ∧ state ∈ members

/-- Every state is a member of the block that is entered for it and of no other block, and
there are no more members than states. -/
structure Proper (partition : Partition size) : Prop where
  lists_iff : ∀ state < size, ∀ block,
    partition.Lists block state ↔ partition.blockOf? state = some block
  sum_lengths : (partition.blocks.toList.map List.length).sum = size

/-! ## Accepted blocks -/

theorem exists_ofBlocks_iff : (∃ partition : Partition size, ofBlocks size blocks = .ok partition) ↔
    ∀ state, state ∈ blocks.flatten ↔ state < size := by
  constructor
  · intro ⟨partition, accepted⟩
    exact (ofBlocks_eq_ok_iff.mp accepted).1
  · intro listed
    have covered := covered_iff.mpr fun state => (listed state).mpr
    exact ⟨_, ofBlocks_eq_ok_iff.mpr ⟨listed, covered, rfl⟩⟩

section Accepted

variable (accepted : ofBlocks size blocks = .ok partition)

include accepted

theorem block?_of_accepted (block : Nat) :
    partition.block? block = (occupied blocks)[block]? := by
  obtain ⟨_, covered, rfl⟩ := ofBlocks_eq_ok_iff.mp accepted
  exact List.getElem?_toArray

/-- The block that is entered for a state lists it, and no later block does. -/
theorem lists_last_of_blockOf? {state block : Nat}
    (entered : partition.blockOf? state = some block) :
    partition.Lists block state ∧ ∀ later, block < later → ¬partition.Lists later state := by
  have lookup := block?_of_accepted accepted
  obtain ⟨listed, covered, rfl⟩ := ofBlocks_eq_ok_iff.mp accepted
  obtain ⟨inside, entry⟩ := Vector.getElem?_eq_some_iff.mp entered
  have isListed : state ∈ (occupied blocks).flatten := by
    rw [flatten_occupied]
    exact (listed state).mpr inside
  obtain ⟨members, found, belongs, last⟩ := exists_place_of_mem inside isListed
  have place_eq : (blockTable size blocks)[state] = block := entry
  rw [place_eq] at found last
  refine ⟨⟨members, (lookup block).trans found, belongs⟩, ?_⟩
  rintro later after ⟨others, otherFound, alsoBelongs⟩
  exact last later others after ((lookup later).symm.trans otherFound) alsoBelongs

/-- Of the blocks that list a state, the last one is entered for it. -/
theorem blockOf?_eq_some_iff_last {state : Nat} (inside : state < size) (block : Nat) :
    partition.blockOf? state = some block ↔
      partition.Lists block state ∧ ∀ later, block < later → ¬partition.Lists later state := by
  constructor
  · exact lists_last_of_blockOf? accepted
  · intro ⟨lists, last⟩
    have entered : partition.blockOf? state = some (partition.indexOf state) :=
      blockOf?_eq_some_iff.mpr ⟨inside, rfl⟩
    obtain ⟨enteredLists, enteredLast⟩ := lists_last_of_blockOf? accepted entered
    rcases Nat.lt_trichotomy block (partition.indexOf state) with before | same | after
    · exact absurd enteredLists (last _ before)
    · exact same ▸ entered
    · exact absurd lists (enteredLast block after)

/-- As many members as states are stored when no state is listed twice. -/
theorem sum_lengths_eq_iff :
    (partition.blocks.toList.map List.length).sum = size ↔
      blocks.flatten.Perm (List.range size) := by
  obtain ⟨listed, covered, rfl⟩ := ofBlocks_eq_ok_iff.mp accepted
  have stored : ((ofCover size blocks covered).blocks.toList.map List.length).sum =
      blocks.flatten.length := by
    rw [← flatten_occupied, List.length_flatten]
    rfl
  rw [stored]
  constructor
  · intro length_eq
    -- Every state is listed, so that with one member for each state none is listed again.
    have all : (List.range size).Subperm blocks.flatten :=
      List.nodup_range.subperm fun state below => (listed state).mpr (List.mem_range.mp below)
    exact (all.perm_of_length_le (by simp [length_eq])).symm
  · intro once
    simpa using once.length_eq

/-- The tables of accepted blocks agree when no state is listed twice. -/
theorem proper_iff_nodup : partition.Proper ↔ blocks.flatten.Nodup := by
  have listed := (ofBlocks_eq_ok_iff.mp accepted).1
  constructor
  · intro proper
    have once := (sum_lengths_eq_iff accepted).mp proper.sum_lengths
    exact once.nodup_iff.mpr List.nodup_range
  · intro distinct
    have once : blocks.flatten.Perm (List.range size) :=
      (List.perm_ext_iff_of_nodup distinct List.nodup_range).mpr fun state =>
        (listed state).trans List.mem_range.symm
    refine ⟨fun state _ block => ?_, (sum_lengths_eq_iff accepted).mpr once⟩
    obtain ⟨_, covered, rfl⟩ := ofBlocks_eq_ok_iff.mp accepted
    exact (consistent_ofCover covered once).sound.mem_iff state block

end Accepted

/-- Blocks are accepted when they list all states in range and no others. The result then
enters for a state the last block that lists it, and is a partition exactly when no state is
listed twice. -/
theorem ofBlocks_proper_iff_nodup (size : Nat) (blocks : List (List Nat)) :
    ((∃ partition : Partition size, ofBlocks size blocks = .ok partition) ↔
        ∀ state, state ∈ blocks.flatten ↔ state < size) ∧
      ∀ partition : Partition size, ofBlocks size blocks = .ok partition →
        (∀ state < size, ∀ block, partition.blockOf? state = some block ↔
          partition.Lists block state ∧ ∀ later, block < later → ¬partition.Lists later state) ∧
        (partition.Proper ↔ blocks.flatten.Nodup) := by
  refine ⟨exists_ofBlocks_iff, fun partition accepted => ⟨?_, proper_iff_nodup accepted⟩⟩
  intro state inside block
  exact blockOf?_eq_some_iff_last accepted inside block

/-- An empty block between two others is left out. -/
theorem twoAndOne_proper :
    ∃ partition : Partition 3, ofBlocks 3 [[2, 0], [], [1]] = .ok partition ∧
      [[2, 0], [], [1]].flatten.Nodup ∧ partition.Proper := by
  have distinct : [[2, 0], [], [1]].flatten.Nodup := by decide
  have once : [[2, 0], [], [1]].flatten.Perm (List.range 3) := by decide
  obtain ⟨covered, accepted⟩ := exists_ofBlocks_eq_ok once
  have proper_iff := ((ofBlocks_proper_iff_nodup 3 [[2, 0], [], [1]]).2 _ accepted).2
  exact ⟨_, accepted, distinct, proper_iff.mpr distinct⟩

/-- Two blocks that list the same state are accepted, and the first one is not entered for it. -/
theorem doubled_not_proper :
    ∃ partition : Partition 1, ofBlocks 1 [[0], [0]] = .ok partition ∧
      partition.Lists 0 0 ∧ partition.blockOf? 0 = some 1 ∧ ¬partition.Proper := by
  refine ⟨ofCover 1 [[0], [0]] (by decide), by rfl, ⟨[0], rfl, List.mem_singleton_self 0⟩, rfl, ?_⟩
  intro proper
  have entered := (proper.lists_iff 0 (by decide) 0).mp ⟨[0], rfl, List.mem_singleton_self 0⟩
  exact absurd entered (by decide)

end Partition

end Acceptors
