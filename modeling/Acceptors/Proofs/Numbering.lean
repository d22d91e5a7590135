import Acceptors.Numbering

/-!
Contract: look-ups in a numbering, before and after a key is added.

Owns: when a key has no number, when a number has no key, the numbers and the keys of
the listed entries, and the effect of an insertion on the size and on the keys.
Does not own: what is numbered.
-/

namespace Acceptors

namespace Numbering

variable {Key : Type} [Ord Key] [Std.TransOrd Key] [Std.LawfulEqOrd Key]
variable {numbering : Numbering Key} {key : Key}

theorem number?_eq_none_iff : numbering.number? key = none ↔ key ∉ numbering.toList := by
  rw [Option.eq_none_iff_forall_ne_some, mem_toList_iff, not_exists]
  simp only [ne_eq, number?_eq_some_iff]

theorem exists_number?_of_mem (listed : key ∈ numbering.toList) :
    ∃ number, numbering.number? key = some number := by
  obtain ⟨number, found⟩ := mem_toList_iff.mp listed
  exact ⟨number, number?_eq_some_iff.mpr found⟩

theorem mem_of_key? {number : Nat} (found : numbering.key? number = some key) :
    key ∈ numbering.toList :=
  mem_toList_iff.mpr ⟨number, found⟩

theorem key?_eq_none_iff {number : Nat} :
    numbering.key? number = none ↔ numbering.size ≤ number :=
  Array.getElem?_eq_none_iff

theorem exists_key?_of_lt {number : Nat} (inside : number < numbering.size) :
    ∃ key, numbering.key? number = some key :=
  ⟨_, Array.getElem?_eq_getElem inside⟩

/-- Two numbers in use are equal when their keys are. -/
theorem number_eq_iff {other : Key} {number otherNumber : Nat}
    (found : numbering.key? number = some key)
    (otherFound : numbering.key? otherNumber = some other) :
    number = otherNumber ↔ key = other := by
  constructor
  · intro same
    rw [same, otherFound] at found
    exact (Option.some.inj found).symm
  · intro same
    rw [← number?_eq_some_iff] at found otherFound
    rw [same, otherFound] at found
    exact (Option.some.inj found).symm

/-- The entries are listed under the numbers from zero up to the size. -/
theorem map_fst_entries (numbering : Numbering Key) :
    numbering.entries.map Prod.fst = List.range numbering.size := by
  rw [entries, List.map_map, size_eq_length, List.range_eq_range']
  exact List.zipIdx_map_snd 0 numbering.toList

theorem map_snd_entries (numbering : Numbering Key) :
    numbering.entries.map Prod.snd = numbering.toList := by
  rw [entries, List.map_map]
  exact List.zipIdx_map_fst 0 numbering.toList

theorem insert_of_number? {number : Nat} (found : numbering.number? key = some number) :
    numbering.insert key = numbering := by
  unfold insert
  split
  · rfl
  · rename_i unseen
    cases unseen.symm.trans found

theorem size_insert_of_new (unseen : numbering.number? key = none) :
    (numbering.insert key).size = numbering.size + 1 := by
  unfold insert
  split
  · rename_i number found
    cases unseen.symm.trans found
  · exact Array.size_push key

/-- A new key gets the number that follows all others. -/
theorem key?_insert_of_new (unseen : numbering.number? key = none) (number : Nat) :
    (numbering.insert key).key? number =
      if number = numbering.size then some key else numbering.key? number := by
  unfold insert
  split
  · rename_i other found
    cases unseen.symm.trans found
  · exact Array.getElem?_push

theorem number?_insert_of_new (unseen : numbering.number? key = none) (other : Key) :
    (numbering.insert key).number? other =
      if compare key other = .eq then some numbering.size else numbering.number? other := by
  unfold insert
  split
  · rename_i number found
    cases unseen.symm.trans found
  · exact Std.ExtTreeMap.getElem?_insert

/-- A key keeps its number. -/
theorem number?_insert {other : Key} {number : Nat}
    (found : numbering.number? other = some number) :
    (numbering.insert key).number? other = some number :=
  number?_eq_some_iff.mpr (key?_insert (number?_eq_some_iff.mp found))

end Numbering

end Acceptors
