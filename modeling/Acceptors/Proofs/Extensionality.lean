import Mathlib.Data.Set.Card
import Acceptors.StateSet.History

/-!
Contract: sets of states as keys.

Owns: what the queries of a set answer when its members are known, the order of
sets as the lexicographic order of their ascending lists, and the use of equal
sets in place of each other as keys of hashed and of ordered maps.
Does not own: the operations of a history, or the law that its sets have the
members that were put into them.
-/

namespace Acceptors.StateSet

/-- What insertion answers: whether the state is new to the set. -/
def adds (set : StateSet) (state : Nat) : Bool := !(set.containsThenInsert state).1

theorem adds_iff {set : StateSet} {state : Nat} : set.adds state = true ↔ state ∉ set := by
  simp [adds, containsThenInsert, ← contains_iff]

/-! ## Queries -/

/-- The answers of a set whose members are known. Those about its size, its one
member and what it shares with another set are given by its ascending list. -/
structure Answers (set : StateSet) (members : Set Nat) : Prop where
  contains : ∀ state, set.contains state = true ↔ state ∈ members
  adds : ∀ state, set.adds state = true ↔ state ∉ members
  ascending : set.toList.Pairwise (· < ·)
  lists : ∀ state, state ∈ set.toList ↔ state ∈ members
  size : set.size = set.toList.length ∧ set.size = members.ncard
  isEmpty : set.isEmpty = true ↔ set.toList = []
  single? : ∀ state, set.single? = some state ↔ set.toList = [state]
  intersects : ∀ other : StateSet,
    set.intersects other = true ↔ ∃ state ∈ set.toList, state ∈ other.toList

/-- A set has as many members as its list has places. -/
theorem ncard_eq_size {set : StateSet} {members : Set Nat}
    (known : ∀ state, state ∈ set ↔ state ∈ members) : members.ncard = set.size := by
  have asFinset : members = (set.toList.toFinset : Set Nat) := by
    ext
    simp [mem_toList, known]
  have distinct : set.toList.Nodup := set.ascending.imp fun less => Nat.ne_of_lt less
  rw [asFinset, Set.ncard_coe_finset, List.toFinset_card_of_nodup distinct, size]

theorem answers_of_mem_iff {set : StateSet} {members : Set Nat}
    (known : ∀ state, state ∈ set ↔ state ∈ members) : Answers set members where
  contains state := contains_iff.trans (known state)
  adds state := adds_iff.trans (not_congr (known state))
  ascending := set.ascending
  lists := known
  size := ⟨rfl, (ncard_eq_size known).symm⟩
  isEmpty := List.isEmpty_iff
  single? _ := single?_eq_some_iff.trans
    ⟨fun same => same ▸ rfl, fun same => toList_injective same⟩
  intersects _ := intersects_iff

/-! ## Order -/

/-- The comparison of lists of numbers is lexicographic. -/
theorem compare_eq_lt_iff_lex {left right : List Nat} :
    compare left right = .lt ↔ List.Lex (· < ·) left right := by
  induction left generalizing right with
  | nil => cases right <;> simp
  | cons leftHead leftTail inductionHypothesis =>
      cases right with
      | nil => simp
      | cons rightHead rightTail =>
          rw [List.compare_cons_cons, Ordering.then_eq_lt, Nat.compare_eq_lt, Nat.compare_eq_eq,
            inductionHypothesis, List.cons_lex_cons_iff]

theorem lex_of_isPrefix {left right : List Nat} (starts : left <+: right)
    (different : left ≠ right) : List.Lex (· < ·) left right := by
  obtain ⟨rest, rfl⟩ := starts
  cases rest with
  | nil => exact absurd (List.append_nil left).symm different
  | cons head tail =>
      induction left with
      | nil => exact .nil
      | cons first rest inductionHypothesis => exact .cons (inductionHypothesis (by simp))

/-- The order of two sets, by their ascending lists. -/
structure Compares (left right : StateSet) : Prop where
  less : compare left right = .lt ↔ List.Lex (· < ·) left.toList right.toList
  same : compare left right = .eq ↔ left = right
  greater : compare left right = .gt ↔ List.Lex (· < ·) right.toList left.toList
  shorter : left.toList <+: right.toList → left ≠ right → compare left right = .lt
  chains : ∀ third : StateSet,
    compare left right = .lt → compare right third = .lt → compare left third = .lt

theorem compare_eq_lt_iff {left right : StateSet} :
    compare left right = .lt ↔ List.Lex (· < ·) left.toList right.toList :=
  compare_eq_lt_iff_lex

theorem compares (left right : StateSet) : Compares left right where
  less := compare_eq_lt_iff
  same := Std.compare_eq_iff_eq
  greater := Std.OrientedCmp.gt_iff_lt.trans compare_eq_lt_iff
  shorter starts different := compare_eq_lt_iff.mpr
    (lex_of_isPrefix starts fun same => different (toList_injective same))
  chains _ := Std.TransCmp.lt_trans

/-! ## Keys -/

/-- Two sets with known members as keys: they are equal only with the same
members, and a map takes one for the other exactly then. -/
structure Keys (left right : StateSet) (leftMembers rightMembers : Set Nat) : Prop where
  equal : left = right ↔ leftMembers = rightMembers
  hashed : leftMembers = rightMembers → hash left = hash right
  insertHashed : ∀ (Value : Type) (map : Std.HashMap StateSet Value) (value : Value),
    (map.insert left value)[right]? = if left = right then some value else map[right]?
  eraseHashed : ∀ (Value : Type) (map : Std.HashMap StateSet Value),
    (map.erase left)[right]? = if left = right then none else map[right]?
  insertOrdered : ∀ (Value : Type) (map : Std.TreeMap StateSet Value) (value : Value),
    (map.insert left value)[right]? = if left = right then some value else map[right]?
  eraseOrdered : ∀ (Value : Type) (map : Std.TreeMap StateSet Value),
    (map.erase left)[right]? = if left = right then none else map[right]?

theorem keys_of_mem_iff {left right : StateSet} {leftMembers rightMembers : Set Nat}
    (leftKnown : ∀ state, state ∈ left ↔ state ∈ leftMembers)
    (rightKnown : ∀ state, state ∈ right ↔ state ∈ rightMembers) :
    Keys left right leftMembers rightMembers := by
  have equal : left = right ↔ leftMembers = rightMembers := by
    simp only [StateSet.ext_iff, Set.ext_iff, leftKnown, rightKnown]
  refine {
    equal := equal
    hashed := fun same => congrArg hash (equal.mpr same)
    insertHashed := ?_
    eraseHashed := ?_
    insertOrdered := ?_
    eraseOrdered := ?_ }
  · intro Value map value
    simp [Std.HashMap.getElem?_insert]
  · intro Value map
    simp [Std.HashMap.getElem?_erase]
  · intro Value map value
    simp [Std.TreeMap.getElem?_insert]
  · intro Value map
    simp [Std.TreeMap.getElem?_erase]

/-- Sets answer, compare and serve as keys by what was put into them, whatever
the two histories they come from. -/
theorem History.extensional {leftCount rightCount : Nat} (left : History leftCount)
    (leftPlace : Fin leftCount) (right : History rightCount) (rightPlace : Fin rightCount) :
    Answers (left.sets leftPlace) (left.put leftPlace) ∧
      Keys (left.sets leftPlace) (right.sets rightPlace) (left.put leftPlace)
        (right.put rightPlace) ∧
      Compares (left.sets leftPlace) (right.sets rightPlace) := by
  have leftKnown := left.holds leftPlace
  have rightKnown := right.holds rightPlace
  exact ⟨answers_of_mem_iff leftKnown, keys_of_mem_iff leftKnown rightKnown, compares _ _⟩

end Acceptors.StateSet
