import Std.Data.ExtTreeMap

/-!
Contract: numbers for distinct keys, in the order in which the keys arrive.

Owns: the type `Numbering`, in which every key has one number and every number
below the size has one key, and the operation that gives the next number to a
new key.
Does not own: what the keys are or where they come from.
-/

namespace Acceptors

/-- Distinct keys with their numbers. The two tables are inverse to each other. -/
structure Numbering (Key : Type) [Ord Key] [Std.TransOrd Key] [Std.LawfulEqOrd Key] where
  keys : Array Key
  numbers : Std.ExtTreeMap Key Nat
  inverse : ∀ (key : Key) (number : Nat), numbers[key]? = some number ↔ keys[number]? = some key

namespace Numbering

variable {Key : Type} [Ord Key] [Std.TransOrd Key] [Std.LawfulEqOrd Key]

def empty : Numbering Key := ⟨#[], ∅, by simp⟩

/-- How many keys have a number. The numbers in use are those below the size. -/
def size (numbering : Numbering Key) : Nat := numbering.keys.size

def key? (numbering : Numbering Key) (number : Nat) : Option Key := numbering.keys[number]?

def number? (numbering : Numbering Key) (key : Key) : Option Nat := numbering.numbers[key]?

def toList (numbering : Numbering Key) : List Key := numbering.keys.toList

/-- Gives the next number to a key, unless the key has one already. -/
def insert (numbering : Numbering Key) (key : Key) : Numbering Key :=
  match unseen : numbering.numbers[key]? with
  | some _ => numbering
  | none =>
      { keys := numbering.keys.push key
        numbers := numbering.numbers.insert key numbering.keys.size
        inverse := by
          intro other number
          have inverse := numbering.inverse other number
          rw [Std.ExtTreeMap.getElem?_insert, Array.getElem?_push]
          by_cases same : key = other
          · subst same
            rw [if_pos Std.ReflCmp.compare_self]
            by_cases last : number = numbering.keys.size
            · simp [last]
            · rw [if_neg last, ← inverse, unseen]
              simp [eq_comm, last]
          · have different : compare key other ≠ .eq :=
              fun equal => same (Std.LawfulEqCmp.eq_of_compare equal)
            rw [if_neg different, inverse]
            by_cases last : number = numbering.keys.size
            · simp [last, same]
            · rw [if_neg last] }

/-- The number of a key after the key has been given one. -/
def insertThenNumber (numbering : Numbering Key) (key : Key) : Nat × Numbering Key :=
  ((numbering.number? key).getD numbering.size, numbering.insert key)

/-- A numbering of one key, whose number is zero. -/
def singleton (key : Key) : Numbering Key := empty.insert key

theorem number?_eq_some_iff {numbering : Numbering Key} {key : Key} {number : Nat} :
    numbering.number? key = some number ↔ numbering.key? number = some key :=
  numbering.inverse key number

theorem mem_toList_iff {numbering : Numbering Key} {key : Key} :
    key ∈ numbering.toList ↔ ∃ number, numbering.key? number = some key := by
  simp [toList, key?, Array.mem_iff_getElem?]

theorem lt_size_of_key? {numbering : Numbering Key} {number : Nat} {key : Key}
    (found : numbering.key? number = some key) : number < numbering.size := by
  obtain ⟨inside, _⟩ := Array.getElem?_eq_some_iff.mp found
  exact inside

theorem lt_size_of_number? {numbering : Numbering Key} {number : Nat} {key : Key}
    (found : numbering.number? key = some number) : number < numbering.size :=
  lt_size_of_key? (number?_eq_some_iff.mp found)

theorem nodup_toList (numbering : Numbering Key) : numbering.toList.Nodup := by
  refine List.nodup_iff_pairwise_ne.mpr (List.pairwise_iff_getElem.mpr ?_)
  intro first second firstInside secondInside before same
  have numberOf (place : Nat) (inside : place < numbering.toList.length) :
      numbering.numbers[numbering.toList[place]]? = some place :=
    (numbering.inverse _ place).mpr (by simp [toList])
  have firstNumber := numberOf first firstInside
  rw [same, numberOf second secondInside] at firstNumber
  cases firstNumber
  exact Nat.lt_irrefl _ before

@[simp] theorem mem_toList_insert {numbering : Numbering Key} {key other : Key} :
    other ∈ (numbering.insert key).toList ↔ other = key ∨ other ∈ numbering.toList := by
  unfold insert
  split
  · rename_i number found
    have listed : key ∈ numbering.toList :=
      mem_toList_iff.mpr ⟨number, (numbering.inverse key number).mp found⟩
    constructor
    · exact Or.inr
    · rintro (rfl | listed)
      · assumption
      · exact listed
  · simp [toList, or_comm]

/-- A number once given stays with its key. -/
theorem key?_insert {numbering : Numbering Key} {key other : Key} {number : Nat}
    (found : numbering.key? number = some other) :
    (numbering.insert key).key? number = some other := by
  unfold insert
  split
  · exact found
  · simp only [key?, Array.getElem?_push]
    have inside : number ≠ numbering.keys.size := Nat.ne_of_lt (lt_size_of_key? found)
    rw [if_neg inside]
    exact found

/-- The numbers in use with their keys, in ascending order. -/
def entries (numbering : Numbering Key) : List (Nat × Key) :=
  numbering.toList.zipIdx.map Prod.swap

theorem mem_entries_iff {numbering : Numbering Key} {number : Nat} {key : Key} :
    (number, key) ∈ numbering.entries ↔ numbering.key? number = some key := by
  simp only [entries, toList, key?, List.mem_map, Prod.exists, List.mem_zipIdx_iff_getElem?,
    Array.getElem?_toList, Prod.swap_prod_mk, Prod.mk.injEq]
  exact ⟨fun ⟨_, _, found, numbers, keys⟩ => numbers ▸ keys ▸ found,
    fun found => ⟨key, number, found, rfl, rfl⟩⟩

theorem size_eq_length (numbering : Numbering Key) : numbering.size = numbering.toList.length := by
  simp [size, toList]

end Numbering

end Acceptors
