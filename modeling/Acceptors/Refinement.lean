import Acceptors.Partition

/-!
Contract: partitions divided until the members of each block look alike.

Owns: the refinement of a partition by signatures, with a record of every
division and the number of passes.
Does not own: which signature states have.

One pass examines every block that exists when the pass starts. The first member
of a block represents it and the members with another signature move to one new
block. A pass reads signatures from the partition as it is at that moment. The
passes end because each division adds a block and no division adds a member.
-/

namespace Acceptors

variable {size : Nat} {Signature : Type}

/-- One division: the members that left a block and the signature of those that stayed. -/
structure Division (Signature : Type) where
  block : Nat
  moved : List Nat
  signature : Signature
deriving DecidableEq, Repr

/-- A partition together with the divisions that led to it, in order. -/
structure Progress (size : Nat) (Signature : Type) where
  partition : Partition size
  divisions : List (Division Signature)

/-- The outcome of a refinement: its partition, all divisions in order, and the number
of passes, the last of which divides nothing. -/
structure Refinement (size : Nat) (Signature : Type) where
  partition : Partition size
  divisions : List (Division Signature)
  passes : Nat

namespace Partition

def memberCount (partition : Partition size) : Nat :=
  partition.blocks.toList.flatten.length

def slack (partition : Partition size) : Nat := partition.memberCount - partition.count

private theorem length_le_length_flatten (blocks : List (List Nat))
    (nonempty : ∀ block ∈ blocks, block ≠ []) : blocks.length ≤ blocks.flatten.length := by
  induction blocks with
  | nil => simp
  | cons head tail inductionHypothesis =>
      have positive := List.length_pos_iff.mpr (nonempty head List.mem_cons_self)
      have rest := inductionHypothesis fun block listed =>
        nonempty block (List.mem_cons_of_mem _ listed)
      rw [List.length_cons, List.flatten_cons, List.length_append]
      omega

theorem count_le_memberCount (partition : Partition size) :
    partition.count ≤ partition.memberCount := by
  have bound := length_le_length_flatten partition.blocks.toList fun block listed =>
    partition.nonempty block (Array.mem_toList_iff.mp listed)
  rwa [Array.length_toList] at bound

private theorem length_flatten_set (blocks : List (List Nat)) (place : Nat)
    (block members : List Nat) (found : blocks[place]? = some members) :
    (blocks.set place block).flatten.length + members.length =
      blocks.flatten.length + block.length := by
  induction blocks generalizing place with
  | nil => simp at found
  | cons head tail inductionHypothesis =>
      cases place with
      | zero =>
          cases found
          rw [List.set_cons_zero, List.flatten_cons, List.flatten_cons, List.length_append,
            List.length_append]
          omega
      | succ place =>
          have rest := inductionHypothesis place found
          rw [List.set_cons_succ, List.flatten_cons, List.flatten_cons, List.length_append,
            List.length_append]
          omega

theorem count_divide (partition : Partition size) (block : Nat) (keep off : List Nat)
    (keepNonempty : keep ≠ []) (offNonempty : off ≠ []) :
    (partition.divide block keep off keepNonempty offNonempty).count = partition.count + 1 := by
  simp [divide, count]

theorem memberCount_divide (partition : Partition size) (block : Nat) (keep off members : List Nat)
    (keepNonempty : keep ≠ []) (offNonempty : off ≠ [])
    (found : partition.block? block = some members)
    (lengths : keep.length + off.length = members.length) :
    (partition.divide block keep off keepNonempty offNonempty).memberCount =
      partition.memberCount := by
  have total := length_flatten_set partition.blocks.toList block keep members
    (by rwa [block?, ← Array.getElem?_toList] at found)
  simp only [memberCount, divide, Array.toList_push, Array.toList_setIfInBounds,
    List.flatten_append, List.flatten_cons, List.flatten_nil, List.append_nil, List.length_append]
  omega

end Partition

section

variable [DecidableEq Signature]

/-- The members of a block whose signature is that of its first member. -/
def alike (signature : Nat → Signature) (members : List Nat) (first : Nat) : List Nat :=
  members.filter fun state => signature state = signature first

/-- The members of a block whose signature is not that of its first member. -/
def unlike (signature : Nat → Signature) (members : List Nat) (first : Nat) : List Nat :=
  members.filter fun state => signature state ≠ signature first

theorem alike_ne_nil {signature : Nat → Signature} {first : Nat} {rest : List Nat} :
    alike signature (first :: rest) first ≠ [] := by
  simp [alike]

theorem length_alike_add_length_unlike (signature : Nat → Signature) (members : List Nat)
    (first : Nat) :
    (alike signature members first).length + (unlike signature members first).length =
      members.length := by
  unfold alike unlike
  induction members with
  | nil => rfl
  | cons head tail inductionHypothesis =>
      by_cases same : signature head = signature first <;> simp [same] <;> simp at * <;> omega

/-- Examines one block and divides it if its members do not look alike. -/
def examine (signature : Partition size → Nat → Signature) (progress : Progress size Signature)
    (block : Nat) : Progress size Signature :=
  match progress.partition.block? block with
  | none | some [] => progress
  | some (first :: rest) =>
      let off := unlike (signature progress.partition) (first :: rest) first
      if same : off = [] then progress
      else
        { partition := progress.partition.divide block
            (alike (signature progress.partition) (first :: rest) first) off alike_ne_nil same
          divisions := progress.divisions ++ [⟨block, off, signature progress.partition first⟩] }

/-- Examines every block that exists now. -/
def pass (signature : Partition size → Nat → Signature) (partition : Partition size) :
    Progress size Signature :=
  (List.range partition.count).foldl (examine signature) ⟨partition, []⟩

/-- What a step of a pass keeps: members stay, and each division adds one block. -/
private def Accounts (start : Partition size) (progress : Progress size Signature) : Prop :=
  progress.partition.memberCount = start.memberCount ∧
    progress.partition.count = start.count + progress.divisions.length

private theorem accounts_examine {signature : Partition size → Nat → Signature}
    {start : Partition size} {progress : Progress size Signature} {block : Nat}
    (accounts : Accounts start progress) : Accounts start (examine signature progress block) := by
  unfold examine
  split
  · exact accounts
  · exact accounts
  · rename_i first rest found
    dsimp only
    split
    · exact accounts
    · refine ⟨?_, ?_⟩
      · rw [Partition.memberCount_divide _ _ _ _ _ _ _ found
          (length_alike_add_length_unlike _ _ _)]
        exact accounts.1
      · rw [Partition.count_divide, accounts.2, List.length_append]
        rfl

/-- A pass keeps all members and adds one block for each division. -/
theorem memberCount_pass (signature : Partition size → Nat → Signature)
    (partition : Partition size) :
    (pass signature partition).partition.memberCount = partition.memberCount ∧
      (pass signature partition).partition.count =
        partition.count + (pass signature partition).divisions.length := by
  have folded (blocks : List Nat) (progress : Progress size Signature)
      (accounts : Accounts partition progress) :
      Accounts partition (blocks.foldl (examine signature) progress) := by
    induction blocks generalizing progress with
    | nil => exact accounts
    | cons head tail inductionHypothesis =>
        exact inductionHypothesis _ (accounts_examine accounts)
  exact folded _ _ ⟨rfl, rfl⟩

/-- Repeats passes until one divides nothing. -/
def refine (signature : Partition size → Nat → Signature) (partition : Partition size) :
    Refinement size Signature :=
  let progress := pass signature partition
  if progress.divisions.isEmpty then ⟨progress.partition, [], 1⟩
  else
    let later := refine signature progress.partition
    ⟨later.partition, progress.divisions ++ later.divisions, later.passes + 1⟩
termination_by partition.slack
decreasing_by
  rename_i divided
  have accounts := memberCount_pass signature partition
  have bound := (pass signature partition).partition.count_le_memberCount
  have some : 0 < (pass signature partition).divisions.length :=
    List.length_pos_iff.mpr fun none => divided (List.isEmpty_iff.mpr none)
  simp only [Partition.slack]
  omega

end

end Acceptors
