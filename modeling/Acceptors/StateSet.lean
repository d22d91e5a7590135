import Acceptors.Text.Listing

/-!
Contract: finite sets of states in canonical form.

Owns: the type `StateSet`, its operations with one membership law each, its
order, its hash and its text.
Does not own: what a set is used for, or the bound that an automaton puts on it.

A set stores its members in strictly ascending order. Two sets with the same
members are therefore equal as values (`StateSet.ext`), so a set serves as a key
of ordered and of hashed maps.
-/

namespace Acceptors

/-- A finite set of states, stored as the ascending list of its members. -/
structure StateSet where
  toList : List Nat
  ascending : toList.Pairwise (· < ·)
deriving DecidableEq

/-- Puts a state into an ascending list, unless the list already has it. -/
def insertAscending (state : Nat) : List Nat → List Nat
  | [] => [state]
  | head :: tail =>
      if state < head then state :: head :: tail
      else if state = head then head :: tail
      else head :: insertAscending state tail

theorem mem_insertAscending {state other : Nat} {members : List Nat} :
    other ∈ insertAscending state members ↔ other = state ∨ other ∈ members := by
  induction members with
  | nil => simp [insertAscending]
  | cons head tail inductionHypothesis =>
      unfold insertAscending
      split
      · simp
      · split
        · rename_i same
          simp [same]
        · simp only [List.mem_cons, inductionHypothesis]
          exact or_left_comm

theorem pairwise_insertAscending {state : Nat} {members : List Nat}
    (ascending : members.Pairwise (· < ·)) :
    (insertAscending state members).Pairwise (· < ·) := by
  induction members with
  | nil => simp [insertAscending]
  | cons head tail inductionHypothesis =>
      have parts := List.pairwise_cons.mp ascending
      unfold insertAscending
      split
      · rename_i less
        refine List.pairwise_cons.mpr ⟨?_, ascending⟩
        intro member belongs
        rcases List.mem_cons.mp belongs with same | later
        · exact same ▸ less
        · exact Nat.lt_trans less (parts.1 member later)
      · split
        · exact ascending
        · rename_i notLess notSame
          refine List.pairwise_cons.mpr ⟨?_, inductionHypothesis parts.2⟩
          intro member belongs
          rcases mem_insertAscending.mp belongs with same | later
          · omega
          · exact parts.1 member later

namespace StateSet

instance : Membership Nat StateSet := ⟨fun set state => state ∈ set.toList⟩

instance (state : Nat) (set : StateSet) : Decidable (state ∈ set) :=
  inferInstanceAs (Decidable (state ∈ set.toList))

theorem mem_toList {state : Nat} {set : StateSet} : state ∈ set.toList ↔ state ∈ set :=
  Iff.rfl

theorem toList_injective {left right : StateSet} (same : left.toList = right.toList) :
    left = right := by
  cases left
  cases right
  simp_all

/-- Ascending lists with the same members are the same list. -/
private theorem eq_of_ascending {left right : List Nat}
    (leftAscending : left.Pairwise (· < ·)) (rightAscending : right.Pairwise (· < ·))
    (same : ∀ state, state ∈ left ↔ state ∈ right) : left = right := by
  induction left generalizing right with
  | nil =>
      cases right with
      | nil => rfl
      | cons head tail => exact absurd ((same head).mpr (by simp)) (by simp)
  | cons leftHead leftTail inductionHypothesis =>
      cases right with
      | nil => exact absurd ((same leftHead).mp (by simp)) (by simp)
      | cons rightHead rightTail =>
          have leftParts := List.pairwise_cons.mp leftAscending
          have rightParts := List.pairwise_cons.mp rightAscending
          have heads : leftHead = rightHead := by
            rcases List.mem_cons.mp ((same leftHead).mp (by simp)) with equal | later
            · exact equal
            · rcases List.mem_cons.mp ((same rightHead).mpr (by simp)) with equal | earlier
              · exact equal.symm
              · have := leftParts.1 rightHead earlier
                have := rightParts.1 leftHead later
                omega
          subst heads
          congr 1
          refine inductionHypothesis leftParts.2 rightParts.2 fun state => ?_
          constructor
          · intro belongs
            rcases List.mem_cons.mp ((same state).mp (by simp [belongs])) with equal | later
            · have := leftParts.1 state belongs
              omega
            · exact later
          · intro belongs
            rcases List.mem_cons.mp ((same state).mpr (by simp [belongs])) with equal | later
            · have := rightParts.1 state belongs
              omega
            · exact later

/-- A set is determined by its members. -/
@[ext] theorem ext {left right : StateSet} (same : ∀ state, state ∈ left ↔ state ∈ right) :
    left = right :=
  toList_injective (eq_of_ascending left.ascending right.ascending same)

/-! ## Operations -/

def empty : StateSet := ⟨[], List.Pairwise.nil⟩

instance : EmptyCollection StateSet := ⟨empty⟩

instance : Inhabited StateSet := ⟨∅⟩

def singleton (state : Nat) : StateSet := ⟨[state], List.pairwise_singleton _ _⟩

def insert (set : StateSet) (state : Nat) : StateSet :=
  ⟨insertAscending state set.toList, pairwise_insertAscending set.ascending⟩

def insertMany (set : StateSet) (states : List Nat) : StateSet :=
  states.foldr (fun state rest => rest.insert state) set

/-- The set of the states in a list, which may be in any order and repeat itself. -/
def ofList (states : List Nat) : StateSet := empty.insertMany states

def union (left right : StateSet) : StateSet := right.insertMany left.toList

instance : Union StateSet := ⟨union⟩

def contains (set : StateSet) (state : Nat) : Bool := set.toList.contains state

/-- Whether a state was a member already, and the set with that state. -/
def containsThenInsert (set : StateSet) (state : Nat) : Bool × StateSet :=
  (set.contains state, set.insert state)

def size (set : StateSet) : Nat := set.toList.length

def isEmpty (set : StateSet) : Bool := set.toList.isEmpty

/-- The member of a set that has exactly one. -/
def single? (set : StateSet) : Option Nat :=
  match set.toList with
  | [state] => some state
  | _ => none

def intersects (left right : StateSet) : Bool := left.toList.any right.contains

def map (rename : Nat → Nat) (set : StateSet) : StateSet :=
  ofList (set.toList.map rename)

/-- The set as it is printed: its members in braces, or `∅`. -/
def render (set : StateSet) : String :=
  if set.isEmpty then "∅"
  else Text.listing "\x7b" "\x7d" (set.toList.map toString)

/-! ## Membership laws -/

@[simp] theorem not_mem_empty (state : Nat) : state ∉ (∅ : StateSet) := by
  change state ∉ []
  simp

@[simp] theorem mem_singleton {state other : Nat} : other ∈ singleton state ↔ other = state := by
  change other ∈ [state] ↔ _
  simp

@[simp] theorem mem_insert {set : StateSet} {state other : Nat} :
    other ∈ set.insert state ↔ other = state ∨ other ∈ set :=
  mem_insertAscending

@[simp] theorem mem_insertMany {set : StateSet} {states : List Nat} {state : Nat} :
    state ∈ set.insertMany states ↔ state ∈ states ∨ state ∈ set := by
  induction states with
  | nil => simp [insertMany]
  | cons head tail inductionHypothesis =>
      simp only [insertMany, List.foldr_cons, mem_insert, List.mem_cons] at *
      rw [inductionHypothesis, or_assoc]

@[simp] theorem mem_ofList {states : List Nat} {state : Nat} :
    state ∈ ofList states ↔ state ∈ states := by
  have nowhere : state ∉ empty := not_mem_empty state
  simp [ofList, nowhere]

@[simp] theorem mem_union {left right : StateSet} {state : Nat} :
    state ∈ left ∪ right ↔ state ∈ left ∨ state ∈ right :=
  mem_insertMany

@[simp] theorem contains_iff {set : StateSet} {state : Nat} :
    set.contains state = true ↔ state ∈ set := by
  change List.contains set.toList state = true ↔ state ∈ set.toList
  simp

@[simp] theorem mem_map {rename : Nat → Nat} {set : StateSet} {state : Nat} :
    state ∈ set.map rename ↔ ∃ member ∈ set, rename member = state := by
  simp [map, mem_toList]

theorem intersects_iff {left right : StateSet} :
    left.intersects right = true ↔ ∃ state, state ∈ left ∧ state ∈ right := by
  simp [intersects, mem_toList]

theorem single?_eq_some_iff {set : StateSet} {state : Nat} :
    set.single? = some state ↔ set = singleton state := by
  obtain ⟨members, ascending⟩ := set
  simp only [single?, singleton, StateSet.mk.injEq]
  split
  · rename_i found same
    simp
  · rename_i different
    constructor
    · intro impossible
      cases impossible
    · intro same
      exact absurd same (different state)

theorem isEmpty_iff {set : StateSet} : set.isEmpty = true ↔ set = ∅ := by
  constructor
  · intro noMember
    exact toList_injective (List.isEmpty_iff.mp noMember)
  · rintro rfl
    rfl

theorem ne_empty_iff {set : StateSet} : set ≠ ∅ ↔ ∃ state, state ∈ set := by
  constructor
  · intro nonempty
    obtain ⟨members, ascending⟩ := set
    cases members with
    | nil => exact absurd rfl nonempty
    | cons head tail => exact ⟨head, List.mem_cons_self⟩
  · rintro ⟨state, belongs⟩ rfl
    exact absurd belongs (not_mem_empty state)

theorem singleton_eq_singleton_iff {left right : Nat} :
    singleton left = singleton right ↔ left = right := by
  simp [singleton]

theorem singleton_intersects {state : Nat} {set : StateSet} :
    (singleton state).intersects set = set.contains state := by
  simp [intersects, singleton]

theorem map_singleton {rename : Nat → Nat} {state : Nat} :
    (singleton state).map rename = singleton (rename state) := by
  ext other
  simp [eq_comm]

/-- Members below a bound are at most as many as the bound. -/
theorem size_le_of_forall_lt {set : StateSet} {bound : Nat} (below : ∀ state ∈ set, state < bound) :
    set.size ≤ bound := by
  have distinct : set.toList.Nodup := set.ascending.imp fun less => Nat.ne_of_lt less
  have inside : set.toList ⊆ List.range bound := fun state belongs =>
    List.mem_range.mpr (below state belongs)
  simpa [size] using distinct.length_le_of_subset inside

/-! ## Order and hash -/

/-- Sets are ordered lexicographically by their ascending members. -/
instance : Ord StateSet := ⟨compareOn StateSet.toList⟩

instance : Std.TransOrd StateSet :=
  inferInstanceAs (Std.TransCmp (compareOn StateSet.toList))

instance : Std.LawfulEqOrd StateSet where
  eq_of_compare {_ _} same := toList_injective (Std.LawfulEqCmp.eq_of_compare same)

instance : Hashable StateSet := ⟨fun set => hash set.toList⟩

end StateSet

end Acceptors
