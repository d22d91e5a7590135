import Acceptors.Proofs.Refinement
import Mathlib.Logic.ExistsUnique

/-!
Contract: a partition stays sound however often its blocks are split.

Owns: what a sound partition promises, runs of splits, the cuts that a run may make, and what
one cut changes.
Does not own: the reason for a cut, and partitions that list a state twice.

Members and block numbers are kept in two tables, and a split writes to both. Consistency of
the tables is what a split keeps; all the rest is read off consistent tables.
-/

namespace Acceptors

namespace Partition

variable {size : Nat}

/-! ## Sound partitions -/

/-- Blocks have members, none of them twice. A state is a member of just the block that is
entered for it, so every state in range is in exactly one block. -/
structure Sound (partition : Partition size) : Prop where
  nonempty : ∀ block members, partition.block? block = some members → members ≠ []
  nodup : ∀ block members, partition.block? block = some members → members.Nodup
  mem_iff : ∀ state block, (∃ members, partition.block? block = some members ∧ state ∈ members) ↔
    partition.blockOf? state = some block
  exists_unique : ∀ state < size,
    ∃! block, ∃ members, partition.block? block = some members ∧ state ∈ members

theorem Consistent.sound {partition : Partition size} (consistent : partition.Consistent) :
    partition.Sound := by
  have mem_iff (state block : Nat) :
      (∃ members, partition.block? block = some members ∧ state ∈ members) ↔
        partition.blockOf? state = some block := by
    constructor
    · intro ⟨members, found, belongs⟩
      exact (consistent.mem_iff block members found state).mp belongs
    · intro entered
      obtain ⟨inside, rfl⟩ := blockOf?_eq_some_iff.mp entered
      exact consistent.exists_block? inside
  refine ⟨fun _ _ => ne_nil_of_block?, fun block members found => ?_, mem_iff, ?_⟩
  · exact consistent.nodup members (Array.mem_of_getElem? found)
  · intro state inside
    refine ⟨partition.indexOf state, consistent.exists_block? inside, fun other listed => ?_⟩
    exact (blockOf?_eq_some_iff.mp ((mem_iff state other).mp listed)).2.symm

/-! ## Cuts -/

/-- A block with the members that it keeps and those that are split off. -/
structure Cut where
  block : Nat
  keep : List Nat
  off : List Nat
deriving DecidableEq, Repr

/-- Both parts are nonempty, and together they rearrange the members of the block. -/
structure Cut.Fits (cut : Cut) (partition : Partition size) : Prop where
  keep_ne_nil : cut.keep ≠ []
  off_ne_nil : cut.off ≠ []
  parts : ∃ members, partition.block? cut.block = some members ∧
    (cut.keep ++ cut.off).Perm members

/-- The states are on different sides of the cut. -/
def Cut.Separates (cut : Cut) (left right : Nat) : Prop :=
  left ∈ cut.keep ∧ right ∈ cut.off ∨ left ∈ cut.off ∧ right ∈ cut.keep

/-- What a cut changes: its block keeps one part, the other becomes a new last block, and
states come apart only across the cut. -/
structure Cut.Divides (cut : Cut) (before after : Partition size) : Prop where
  count_eq : after.count = before.count + 1
  kept : after.block? cut.block = some cut.keep
  splitOff : after.block? before.count = some cut.off
  unchanged : ∀ other, other < before.count → other ≠ cut.block →
    after.block? other = before.block? other
  sameBlock_iff : ∀ left right, after.sameBlock? left right = some true ↔
    before.sameBlock? left right = some true ∧ ¬cut.Separates left right

section Step

variable {partition : Partition size} {cut : Cut} (consistent : partition.Consistent)
  (fits : cut.Fits partition)

include consistent fits

/-- Of two states that lie together, a cut separates them when it moves only one. -/
theorem separates_iff {left right : Nat} (leftInside : left < size) (rightInside : right < size)
    (together : partition.indexOf left = partition.indexOf right) :
    cut.Separates left right ↔ ¬(left ∈ cut.off ↔ right ∈ cut.off) := by
  obtain ⟨members, found, parts⟩ := fits.parts
  have isPart (state : Nat) := mem_parts_iff consistent found parts state
  have apart := (List.nodup_append.mp (nodup_parts consistent found parts)).2.2
  have staysOut {state : Nat} (stays : state ∈ cut.keep) : state ∉ cut.off :=
    fun moved => apart state stays state moved rfl
  constructor
  · rintro (⟨leftStays, rightMoves⟩ | ⟨leftMoves, rightStays⟩) same
    · exact staysOut leftStays (same.mpr rightMoves)
    · exact staysOut rightStays (same.mp leftMoves)
  · intro different
    by_cases leftMoves : left ∈ cut.off
    · have rightUnmoved : right ∉ cut.off := fun rightMoves =>
        different (iff_of_true leftMoves rightMoves)
      have index := together.symm.trans ((isPart left).mp (Or.inr leftMoves)).2
      have rightPart := (isPart right).mpr ⟨rightInside, index⟩
      exact Or.inr ⟨leftMoves, rightPart.resolve_right rightUnmoved⟩
    · have rightMoves : right ∈ cut.off := Decidable.byContradiction fun rightUnmoved =>
        different (iff_of_false leftMoves rightUnmoved)
      have index := together.trans ((isPart right).mp (Or.inr rightMoves)).2
      have leftPart := (isPart left).mpr ⟨leftInside, index⟩
      exact Or.inl ⟨leftPart.resolve_right leftMoves, rightMoves⟩

theorem sameBlock?_divide_iff (left right : Nat) :
    (partition.divide cut.block cut.keep cut.off fits.keep_ne_nil fits.off_ne_nil).sameBlock?
        left right = some true ↔
      partition.sameBlock? left right = some true ∧ ¬cut.Separates left right := by
  obtain ⟨members, found, parts⟩ := fits.parts
  have within (state : Nat) (moved : state ∈ cut.off) : state ∈ members :=
    parts.mem_iff.mp (List.mem_append_right _ moved)
  rw [sameBlock?_eq_some_true_iff, sameBlock?_eq_some_true_iff, and_assoc, and_assoc]
  refine and_congr_right fun leftInside => and_congr_right fun rightInside => ?_
  rw [indexOf_divide_eq_iff consistent found within leftInside rightInside]
  refine and_congr_right fun together => ?_
  rw [separates_iff consistent fits leftInside rightInside together, Decidable.not_not]

theorem divides_divide :
    cut.Divides partition
      (partition.divide cut.block cut.keep cut.off fits.keep_ne_nil fits.off_ne_nil) := by
  obtain ⟨members, found, parts⟩ := fits.parts
  have inside := lt_count_of_block? found
  refine ⟨count_divide _ _ _ _ _ _, ?_, ?_, fun other earlier different => ?_,
    sameBlock?_divide_iff consistent fits⟩
  · rw [block?_divide inside, if_neg (Nat.ne_of_lt inside), if_pos rfl]
  · rw [block?_divide inside, if_pos rfl]
  · rw [block?_divide inside, if_neg (Nat.ne_of_lt earlier), if_neg different]

end Step

/-! ## Runs -/

end Partition

end Acceptors
