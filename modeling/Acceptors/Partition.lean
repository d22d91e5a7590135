import Acceptors.Text.Listing

/-!
Contract: the states `0 .. size - 1` divided into numbered blocks.

Owns: the type `Partition`, its construction from listed blocks, the division of
one block in two, and the text that shows a partition.
Does not own: the reason for which a block is divided.

A partition keeps two tables: the members of each block in stored order, and the
block of each state. Blocks are never empty and every state has a block that
exists. `Partition.Consistent` is the further condition that the two tables agree;
listed blocks that share states do not meet it, and the last one wins a state.
-/

namespace Acceptors

structure Partition (size : Nat) where
  blocks : Array (List Nat)
  blockOf : Vector Nat size
  nonempty : ∀ block ∈ blocks, block ≠ []
  blockOf_lt : ∀ block ∈ blockOf, block < blocks.size
deriving DecidableEq

namespace Partition

variable {size : Nat}

/-- Why blocks are no partition, or why a block cannot be divided as asked. -/
inductive Fault where
  | stateOutOfRange (state : Nat)
  | uncovered
  | noSuchBlock (block : Nat)
  | emptyPart
  | lengthMismatch
deriving DecidableEq, Repr

/-! ## Tables of blocks -/

def assign (table : Vector Nat size) (states : List Nat) (block : Nat) : Vector Nat size :=
  states.foldl (fun current state => current.setIfInBounds state block) table

/-- Enters consecutive block numbers for the listed blocks, the last one winning. -/
def assignAll (table : Vector Nat size) (next : Nat) : List (List Nat) → Vector Nat size
  | [] => table
  | block :: rest => assignAll (assign table block next) (next + 1) rest

theorem getElem_assign (table : Vector Nat size) (states : List Nat) (block state : Nat)
    (inside : state < size) :
    (assign table states block)[state] = if state ∈ states then block else table[state] := by
  unfold assign
  induction states generalizing table with
  | nil => simp
  | cons head tail inductionHypothesis =>
      rw [List.foldl_cons, inductionHypothesis, Vector.getElem_setIfInBounds]
      by_cases later : state ∈ tail
      · simp [later]
      · by_cases now : head = state
        · simp [now]
        · simp [later, now, Ne.symm now]

theorem getElem_assignAll_of_not_mem (table : Vector Nat size) (next : Nat)
    (blocks : List (List Nat)) (state : Nat) (inside : state < size)
    (nowhere : ∀ block ∈ blocks, state ∉ block) :
    (assignAll table next blocks)[state] = table[state] := by
  induction blocks generalizing table next with
  | nil => rfl
  | cons head tail inductionHypothesis =>
      rw [assignAll, inductionHypothesis _ _ fun block listed =>
        nowhere block (List.mem_cons_of_mem _ listed), getElem_assign]
      simp [nowhere head List.mem_cons_self]

/-- A state that some listed block contains gets the number of the last such block. -/
theorem getElem_assignAll_of_mem (table : Vector Nat size) (next : Nat)
    (blocks : List (List Nat)) (state : Nat) (inside : state < size)
    (somewhere : ∃ block ∈ blocks, state ∈ block) :
    ∃ place block, blocks[place]? = some block ∧ state ∈ block ∧
      (∀ later other, place < later → blocks[later]? = some other → state ∉ other) ∧
      (assignAll table next blocks)[state] = next + place := by
  induction blocks generalizing table next with
  | nil => simp at somewhere
  | cons head tail inductionHypothesis =>
      by_cases inTail : ∃ block ∈ tail, state ∈ block
      · obtain ⟨place, block, found, belongs, last, entry⟩ :=
          inductionHypothesis (assign table head next) (next + 1) inTail
        refine ⟨place + 1, block, by simpa using found, belongs, ?_, ?_⟩
        · intro later other after otherFound
          cases later with
          | zero => omega
          | succ later => exact last later other (by omega) (by simpa using otherFound)
        · rw [assignAll, entry]
          omega
      · have belongs : state ∈ head := by
          obtain ⟨block, listed, belongs⟩ := somewhere
          rcases List.mem_cons.mp listed with same | rest
          · exact same ▸ belongs
          · exact absurd ⟨block, rest, belongs⟩ inTail
        refine ⟨0, head, rfl, belongs, ?_, ?_⟩
        · intro later other after otherFound alsoBelongs
          cases later with
          | zero => omega
          | succ later =>
              rw [List.getElem?_cons_succ] at otherFound
              exact inTail ⟨other, List.mem_of_getElem? otherFound, alsoBelongs⟩
        · rw [assignAll, getElem_assignAll_of_not_mem _ _ _ _ _ fun block listed belongs =>
            inTail ⟨block, listed, belongs⟩, getElem_assign]
          simp [belongs]

/-! ## Construction -/

/-- The blocks that are not empty, in the order in which they are listed. -/
def occupied (blocks : List (List Nat)) : List (List Nat) :=
  blocks.filter fun block => !block.isEmpty

theorem mem_occupied {blocks : List (List Nat)} {block : List Nat} :
    block ∈ occupied blocks ↔ block ∈ blocks ∧ block ≠ [] := by
  simp [occupied]

/-- The blocks of every state, where the number of blocks stands for "no block". -/
def blockTable (size : Nat) (blocks : List (List Nat)) : Vector Nat size :=
  assignAll (Vector.replicate size (occupied blocks).length) 0 (occupied blocks)

theorem blockTable_lt {blocks : List (List Nat)} {state : Nat} (inside : state < size)
    (covered : ∃ block ∈ blocks, state ∈ block) :
    (blockTable size blocks)[state] < (occupied blocks).length := by
  obtain ⟨block, listed, belongs⟩ := covered
  obtain ⟨place, other, found, _, _, entry⟩ :=
    getElem_assignAll_of_mem (Vector.replicate size (occupied blocks).length) 0 (occupied blocks)
      state inside ⟨block, mem_occupied.mpr ⟨listed, List.ne_nil_of_mem belongs⟩, belongs⟩
  obtain ⟨bound, _⟩ := List.getElem?_eq_some_iff.mp found
  rw [blockTable, entry]
  omega

/-- A state without a listed block has no block. -/
theorem blockTable_eq_of_not_mem {blocks : List (List Nat)} {state : Nat} (inside : state < size)
    (nowhere : ∀ block ∈ blocks, state ∉ block) :
    (blockTable size blocks)[state] = (occupied blocks).length := by
  rw [blockTable, getElem_assignAll_of_not_mem _ _ _ _ _ fun block listed =>
    nowhere block (mem_occupied.mp listed).1]
  simp

/-- Every state has a block exactly when the listed blocks leave no state out. -/
theorem covered_iff {blocks : List (List Nat)} :
    (∀ block ∈ blockTable size blocks, block < (occupied blocks).length) ↔
      ∀ state < size, state ∈ blocks.flatten := by
  rw [Vector.forall_mem_iff_forall_getElem]
  constructor
  · intro covered state inside
    refine Decidable.byContradiction fun missing => ?_
    have entry := blockTable_eq_of_not_mem inside fun block listed belongs =>
      missing (List.mem_flatten.mpr ⟨block, listed, belongs⟩)
    exact Nat.ne_of_lt (covered state inside) entry
  · intro listed state inside
    exact blockTable_lt inside (List.mem_flatten.mp (listed state inside))

/-- Blocks that leave no state out have together at least as many members as there are
states. -/
theorem size_le_length_flatten {blocks : List (List Nat)}
    (covered : ∀ block ∈ blockTable size blocks, block < (occupied blocks).length) :
    size ≤ blocks.flatten.length := by
  have listed : List.range size ⊆ blocks.flatten := fun state below =>
    covered_iff.mp covered state (List.mem_range.mp below)
  simpa using List.nodup_range.length_le_of_subset listed

/-- The partition of listed blocks that leave no state out. -/
def ofCover (size : Nat) (blocks : List (List Nat))
    (covered : ∀ block ∈ blockTable size blocks, block < (occupied blocks).length) :
    Partition size where
  blocks := (occupied blocks).toArray
  blockOf := blockTable size blocks
  nonempty := by
    intro block listed
    exact (mem_occupied.mp (List.mem_toArray.mp listed)).2
  blockOf_lt := by simpa using covered

/-- The partition of listed blocks. Empty ones are skipped; states outside the range and
states without a block are refused. Blocks with fewer members than there are states are
refused before any table is made: by `size_le_length_flatten` they leave a state out. -/
def ofBlocks (size : Nat) (blocks : List (List Nat)) : Except Fault (Partition size) :=
  match blocks.flatten.find? fun state => size ≤ state with
  | some state => .error (.stateOutOfRange state)
  | none =>
      if blocks.flatten.length < size then .error .uncovered
      else if covered : ∀ block ∈ blockTable size blocks, block < (occupied blocks).length then
        .ok (ofCover size blocks covered)
      else .error .uncovered

/-- The partition by a test: first the states that pass, then the others. -/
def ofTest (size : Nat) (test : Nat → Bool) : Partition size :=
  ofCover size [(List.range size).filter test, (List.range size).filter fun state => !test state]
    (by
      refine Vector.forall_mem_iff_forall_getElem.mpr fun state inside => blockTable_lt inside ?_
      cases passes : test state
      · exact ⟨(List.range size).filter fun state => !test state, by simp,
          by simp [inside, passes]⟩
      · exact ⟨(List.range size).filter test, by simp, by simp [inside, passes]⟩)

/-! ## Queries -/

def count (partition : Partition size) : Nat := partition.blocks.size

def block? (partition : Partition size) (block : Nat) : Option (List Nat) :=
  partition.blocks[block]?

/-- The block of a state that is in range. -/
def blockOf? (partition : Partition size) (state : Nat) : Option Nat :=
  partition.blockOf[state]?

/-- The block of a state; the number zero for states out of range. -/
def indexOf (partition : Partition size) (state : Nat) : Nat :=
  (partition.blockOf? state).getD 0

def sameBlock? (partition : Partition size) (left right : Nat) : Option Bool :=
  match partition.blockOf? left, partition.blockOf? right with
  | some leftBlock, some rightBlock => some (leftBlock == rightBlock)
  | _, _ => none

/-- Whether two partitions, also of different ranges, have equal tables. -/
def sameAs {otherSize : Nat} (partition : Partition size) (other : Partition otherSize) : Bool :=
  partition.blocks == other.blocks && partition.blockOf.toArray == other.blockOf.toArray

/-- The two tables agree: a state is in range and has a block exactly when it is one of the
members of that block, and no block repeats a member. -/
structure Consistent (partition : Partition size) : Prop where
  mem_iff : ∀ (block : Nat) (members : List Nat), partition.block? block = some members →
    ∀ state, state ∈ members ↔ partition.blockOf? state = some block
  nodup : ∀ members ∈ partition.blocks, members.Nodup

theorem indexOf_lt (partition : Partition size) {state : Nat} (inside : state < size) :
    partition.indexOf state < partition.count := by
  have entry : partition.blockOf? state = some partition.blockOf[state] :=
    Vector.getElem?_eq_getElem inside
  rw [indexOf, entry]
  exact partition.blockOf_lt _ (Vector.getElem_mem inside)

/-! ## Division -/

/-- Leaves `keep` in a block and puts `off` into a new last block. -/
def divide (partition : Partition size) (block : Nat) (keep off : List Nat)
    (keepNonempty : keep ≠ []) (offNonempty : off ≠ []) : Partition size where
  blocks := (partition.blocks.setIfInBounds block keep).push off
  blockOf := assign partition.blockOf off partition.blocks.size
  nonempty := by
    intro members listed
    rcases Array.mem_push.mp listed with earlier | last
    · rcases Array.mem_or_eq_of_mem_setIfInBounds earlier with unchanged | kept
      · exact partition.nonempty members unchanged
      · exact kept ▸ keepNonempty
    · exact last ▸ offNonempty
  blockOf_lt := by
    rw [Vector.forall_mem_iff_forall_getElem]
    intro state inside
    rw [getElem_assign, Array.size_push, Array.size_setIfInBounds]
    split
    · exact Nat.lt_succ_self _
    · exact Nat.lt_succ_of_lt (partition.blockOf_lt _ (Vector.getElem_mem inside))

/-- Divides a block into two given parts, which must be nonempty and have together as many
members as the block. -/
def split (partition : Partition size) (block : Nat) (keep off : List Nat) :
    Except Fault (Partition size) :=
  if parts : keep ≠ [] ∧ off ≠ [] then
    match partition.block? block with
    | none => .error (.noSuchBlock block)
    | some members =>
        if keep.length + off.length ≠ members.length then .error .lengthMismatch
        else
          match off.find? fun state => size ≤ state with
          | some state => .error (.stateOutOfRange state)
          | none => .ok (partition.divide block keep off parts.1 parts.2)
  else .error .emptyPart

/-- Divides a block and returns the number of the new one, the previous number of blocks. -/
def splitOff (partition : Partition size) (block : Nat) (keep off : List Nat) :
    Except Fault (Nat × Partition size) :=
  (partition.split block keep off).map fun divided => (partition.count, divided)

/-! ## Text -/

def render (partition : Partition size) : String :=
  Text.listing "Partition \x7b " " \x7d" [
    "blocks: " ++ Text.listing "[" "]" (partition.blocks.toList.map Text.bracketed),
    "block_of: " ++ Text.bracketed partition.blockOf.toList]

end Partition

end Acceptors
