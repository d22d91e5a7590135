import Acceptors.StateSet

/-!
Contract: how many sets of states there are below a bound.

Owns: the code of a set as a binary number and the bounds `length_le_pow` and
`length_lt_pow` on lists of distinct sets.
Does not own: the search that the bound makes finite.
-/

namespace Acceptors.StateSet

/-- The number whose binary digit at place `state` tells whether `state` is a member. -/
def code (set : StateSet) : Nat :=
  set.toList.foldr (fun state rest => Nat.pow 2 state ||| rest) 0

/-- The binary digits of the code are the membership test. -/
theorem testBit_code (set : StateSet) (state : Nat) :
    set.code.testBit state = decide (state ∈ set) := by
  have digits (members : List Nat) :
      (members.foldr (fun member rest => Nat.pow 2 member ||| rest) 0).testBit state =
        decide (state ∈ members) := by
    induction members with
    | nil => simp
    | cons head tail inductionHypothesis =>
        rw [List.foldr_cons, Nat.testBit_or, inductionHypothesis, Nat.pow_eq,
          Nat.testBit_two_pow]
        simp [eq_comm]
  exact digits set.toList

theorem code_injective {left right : StateSet} (same : left.code = right.code) :
    left = right := by
  ext state
  have digits := congrArg (Nat.testBit · state) same
  simpa [testBit_code] using digits

theorem code_lt_pow {set : StateSet} {bound : Nat} (below : ∀ state ∈ set, state < bound) :
    set.code < Nat.pow 2 bound := by
  refine Nat.lt_pow_two_of_testBit _ fun place outside => ?_
  rw [testBit_code, decide_eq_false_iff_not]
  intro belongs
  exact Nat.not_lt.mpr outside (below place belongs)

/-- Distinct sets below a bound are at most as many as there are codes. -/
theorem length_le_pow {sets : List StateSet} {bound : Nat} (distinct : sets.Nodup)
    (below : ∀ set ∈ sets, ∀ state ∈ set, state < bound) : sets.length ≤ Nat.pow 2 bound := by
  have codesDistinct : (sets.map code).Nodup :=
    List.Pairwise.map _ (fun _ _ different same => different (code_injective same)) distinct
  have codesBelow : sets.map code ⊆ List.range (Nat.pow 2 bound) := by
    intro number listed
    obtain ⟨set, belongs, rfl⟩ := List.mem_map.mp listed
    exact List.mem_range.mpr (code_lt_pow (below set belongs))
  simpa using codesDistinct.length_le_of_subset codesBelow

/-- Without the empty set they are fewer. -/
theorem length_lt_pow {sets : List StateSet} {bound : Nat} (distinct : sets.Nodup)
    (nonempty : ∅ ∉ sets) (below : ∀ set ∈ sets, ∀ state ∈ set, state < bound) :
    sets.length < Nat.pow 2 bound := by
  have allDistinct : (∅ :: sets).Nodup := List.nodup_cons.mpr ⟨nonempty, distinct⟩
  refine length_le_pow allDistinct fun set listed state belongs => ?_
  rcases List.mem_cons.mp listed with rfl | isListed
  · exact absurd belongs (not_mem_empty state)
  · exact below set isListed state belongs

end Acceptors.StateSet
