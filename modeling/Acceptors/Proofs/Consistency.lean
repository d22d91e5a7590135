import Acceptors.Partition

/-!
Contract: partitions whose two tables agree.

Owns: the consistency of a partition that lists every state once, of the partition
by a test, and of a partition after a division; the success of both operations then;
what the tables say together.
Does not own: the signatures by which blocks are divided.

In a consistent partition `indexOf` alone decides which states lie together, so later
modules compare block numbers and leave the stored members aside.
-/

namespace Acceptors

namespace Partition

variable {size : Nat} {partition : Partition size}

/-! ## Block numbers -/

theorem blockOf?_eq_some_iff {state block : Nat} :
    partition.blockOf? state = some block ↔ state < size ∧ partition.indexOf state = block := by
  unfold indexOf
  by_cases inside : state < size
  · have entry : partition.blockOf? state = some partition.blockOf[state] :=
      Vector.getElem?_eq_getElem inside
    simp [entry, inside]
  · have entry : partition.blockOf? state = none :=
      Vector.getElem?_eq_none (Nat.le_of_not_lt inside)
    simp [entry, inside]

theorem block?_eq_some {block : Nat} (inside : block < partition.count) :
    partition.block? block = some partition.blocks[block] :=
  Array.getElem?_eq_getElem inside

theorem lt_count_of_block? {block : Nat} {members : List Nat}
    (found : partition.block? block = some members) : block < partition.count := by
  obtain ⟨inside, _⟩ := Array.getElem?_eq_some_iff.mp found
  exact inside

theorem ne_nil_of_block? {block : Nat} {members : List Nat}
    (found : partition.block? block = some members) : members ≠ [] :=
  partition.nonempty members (Array.mem_of_getElem? found)

/-- Of two states in range it is known whether they lie together. -/
theorem sameBlock?_eq {left right : Nat} (leftInside : left < size) (rightInside : right < size) :
    partition.sameBlock? left right =
      some (partition.indexOf left == partition.indexOf right) := by
  have leftEntry := blockOf?_eq_some_iff.mpr ⟨leftInside, @rfl _ (partition.indexOf left)⟩
  have rightEntry := blockOf?_eq_some_iff.mpr ⟨rightInside, @rfl _ (partition.indexOf right)⟩
  rw [sameBlock?, leftEntry, rightEntry]

theorem sameBlock?_eq_some_true_iff {left right : Nat} :
    partition.sameBlock? left right = some true ↔
      left < size ∧ right < size ∧ partition.indexOf left = partition.indexOf right := by
  by_cases inside : left < size ∧ right < size
  · rw [sameBlock?_eq inside.1 inside.2]
    simp [inside]
  · have unknown : partition.sameBlock? left right = none := by
      unfold sameBlock?
      split
      · rename_i leftFound rightFound
        exact absurd ⟨(blockOf?_eq_some_iff.mp leftFound).1, (blockOf?_eq_some_iff.mp rightFound).1⟩
          inside
      · rfl
    rw [unknown, ← and_assoc]
    simp [inside]

/-- The two tables agree as those of a consistent partition do, but a block may repeat a
member. -/
structure Agrees (partition : Partition size) : Prop where
  mem_iff : ∀ (block : Nat) (members : List Nat), partition.block? block = some members →
    ∀ state, state ∈ members ↔ partition.blockOf? state = some block

theorem Agrees.mem_iff_indexOf (agrees : partition.Agrees) {block state : Nat}
    {members : List Nat} (found : partition.block? block = some members) :
    state ∈ members ↔ state < size ∧ partition.indexOf state = block := by
  rw [agrees.mem_iff block members found state, blockOf?_eq_some_iff]

theorem Agrees.exists_block? (agrees : partition.Agrees) {state : Nat} (inside : state < size) :
    ∃ members, partition.block? (partition.indexOf state) = some members ∧ state ∈ members := by
  have found := block?_eq_some (partition.indexOf_lt inside)
  exact ⟨_, found, (agrees.mem_iff_indexOf found).mpr ⟨inside, rfl⟩⟩

namespace Consistent

theorem agrees (consistent : partition.Consistent) : partition.Agrees := ⟨consistent.mem_iff⟩

theorem mem_iff_indexOf (consistent : partition.Consistent) {block state : Nat}
    {members : List Nat} (found : partition.block? block = some members) :
    state ∈ members ↔ state < size ∧ partition.indexOf state = block :=
  consistent.agrees.mem_iff_indexOf found

theorem exists_block? (consistent : partition.Consistent) {state : Nat} (inside : state < size) :
    ∃ members, partition.block? (partition.indexOf state) = some members ∧ state ∈ members :=
  consistent.agrees.exists_block? inside

theorem exists_indexOf_eq (consistent : partition.Consistent) {block : Nat}
    (inside : block < partition.count) :
    ∃ state, state < size ∧ partition.indexOf state = block := by
  have found := block?_eq_some inside
  obtain ⟨state, belongs⟩ := List.exists_mem_of_ne_nil _ (ne_nil_of_block? found)
  exact ⟨state, (consistent.mem_iff_indexOf found).mp belongs⟩

theorem count_le (consistent : partition.Consistent) : partition.count ≤ size := by
  have listed : List.range partition.count ⊆ (List.range size).map partition.indexOf := by
    intro block below
    obtain ⟨state, inside, index⟩ := consistent.exists_indexOf_eq (List.mem_range.mp below)
    exact List.mem_map.mpr ⟨state, List.mem_range.mpr inside, index⟩
  simpa using List.nodup_range.length_le_of_subset listed

/-- If there are as many blocks as states, no two states lie together. -/
theorem eq_of_indexOf_eq (consistent : partition.Consistent) (full : size ≤ partition.count)
    {left right : Nat} (leftInside : left < size) (rightInside : right < size)
    (together : partition.indexOf left = partition.indexOf right) : left = right := by
  apply Decidable.byContradiction
  intro different
  -- Without `left` there would still be a state in every block.
  have listed : List.range partition.count ⊆
      ((List.range size).erase left).map partition.indexOf := by
    intro block below
    obtain ⟨state, inside, index⟩ := consistent.exists_indexOf_eq (List.mem_range.mp below)
    by_cases same : state = left
    · refine List.mem_map.mpr ⟨right, ?_, by rw [← together, ← same, index]⟩
      exact (List.mem_erase_of_ne (Ne.symm different)).mpr (List.mem_range.mpr rightInside)
    · refine List.mem_map.mpr ⟨state, ?_, index⟩
      exact (List.mem_erase_of_ne same).mpr (List.mem_range.mpr inside)
  have bound := List.nodup_range.length_le_of_subset listed
  rw [List.length_map, List.length_erase_of_mem (List.mem_range.mpr leftInside),
    List.length_range, List.length_range] at bound
  omega

theorem exists_eq_singleton (consistent : partition.Consistent) (full : size ≤ partition.count)
    {members : List Nat} (listed : members ∈ partition.blocks) : ∃ state, members = [state] := by
  obtain ⟨block, found⟩ := Array.mem_iff_getElem?.mp listed
  obtain ⟨first, rest, rfl⟩ := List.exists_cons_of_ne_nil (partition.nonempty members listed)
  have isMember {state : Nat} (belongs : state ∈ first :: rest) :=
    (consistent.mem_iff_indexOf found).mp belongs
  have none : rest = [] := by
    refine List.eq_nil_iff_forall_not_mem.mpr fun state later => ?_
    have isFirst := isMember List.mem_cons_self
    have isLater := isMember (List.mem_cons_of_mem first later)
    have same := consistent.eq_of_indexOf_eq full isFirst.1 isLater.1
      (isFirst.2.trans isLater.2.symm)
    exact (List.nodup_cons.mp (consistent.nodup _ listed)).1 (same ▸ later)
  exact ⟨first, none ▸ rfl⟩

end Consistent

/-- If no two states lie together, there are as many blocks as states. -/
theorem size_le_count (alone : ∀ left < size, ∀ right < size,
    partition.indexOf left = partition.indexOf right → left = right) :
    size ≤ partition.count := by
  have distinct : ((List.range size).map partition.indexOf).Nodup := by
    rw [List.Nodup, List.pairwise_map]
    refine List.nodup_range.imp_of_mem fun leftListed rightListed different together => ?_
    exact different (alone _ (List.mem_range.mp leftListed) _ (List.mem_range.mp rightListed)
      together)
  have listed : (List.range size).map partition.indexOf ⊆ List.range partition.count := by
    intro block found
    obtain ⟨state, below, rfl⟩ := List.mem_map.mp found
    exact List.mem_range.mpr (partition.indexOf_lt (List.mem_range.mp below))
  simpa using distinct.length_le_of_subset listed

/-! ## Construction -/

theorem flatten_occupied (blocks : List (List Nat)) :
    (occupied blocks).flatten = blocks.flatten := by
  unfold occupied
  induction blocks with
  | nil => rfl
  | cons head tail inductionHypothesis =>
      cases head with
      | nil => exact inductionHypothesis
      | cons first rest =>
          rw [List.filter_cons_of_pos (by simp), List.flatten_cons, inductionHypothesis]
          rfl

/-- A state stands in one of several disjoint blocks only. -/
theorem place_unique {blocks : List (List Nat)}
    (distinct : blocks.Pairwise fun earlier later => ∀ state ∈ earlier, ∀ other ∈ later,
      state ≠ other)
    {left right state : Nat} {leftMembers rightMembers : List Nat}
    (leftFound : blocks[left]? = some leftMembers)
    (rightFound : blocks[right]? = some rightMembers)
    (leftBelongs : state ∈ leftMembers) (rightBelongs : state ∈ rightMembers) :
    left = right := by
  obtain ⟨leftInside, rfl⟩ := List.getElem?_eq_some_iff.mp leftFound
  obtain ⟨rightInside, rfl⟩ := List.getElem?_eq_some_iff.mp rightFound
  have apart := List.pairwise_iff_getElem.mp distinct
  rcases Nat.lt_trichotomy left right with less | same | greater
  · exact absurd rfl (apart left right leftInside rightInside less _ leftBelongs _ rightBelongs)
  · exact same
  · exact absurd rfl
      (apart right left rightInside leftInside greater _ rightBelongs _ leftBelongs)

/-- The table sends a listed state to the place of the last block that lists it. -/
theorem exists_place_of_mem {blocks : List (List Nat)} {state : Nat} (inside : state < size)
    (listed : state ∈ (occupied blocks).flatten) :
    ∃ members, (occupied blocks)[(blockTable size blocks)[state]]? = some members ∧
      state ∈ members ∧ ∀ later other, (blockTable size blocks)[state] < later →
        (occupied blocks)[later]? = some other → state ∉ other := by
  obtain ⟨place, members, found, belongs, last, place_eq⟩ :=
    getElem_assignAll_of_mem (Vector.replicate size (occupied blocks).length) 0
      (occupied blocks) state inside (List.mem_flatten.mp listed)
  rw [Nat.zero_add] at place_eq
  have entry : (blockTable size blocks)[state] = place := place_eq
  rw [entry]
  exact ⟨members, found, belongs, last⟩

/-- Blocks that list every state once make a consistent partition. -/
theorem consistent_ofCover {blocks : List (List Nat)}
    (covered : ∀ block ∈ blockTable size blocks, block < (occupied blocks).length)
    (once : blocks.flatten.Perm (List.range size)) : (ofCover size blocks covered).Consistent := by
  have listedOnce : (occupied blocks).flatten.Perm (List.range size) :=
    (flatten_occupied blocks).symm ▸ once
  have distinct := List.pairwise_flatten.mp (listedOnce.nodup_iff.mpr List.nodup_range)
  have lookup (block : Nat) :
      (ofCover size blocks covered).block? block = (occupied blocks)[block]? :=
    List.getElem?_toArray
  constructor
  · intro block members found state
    rw [lookup] at found
    have isBlock := List.mem_of_getElem? found
    constructor
    · intro belongs
      have listed : state ∈ (occupied blocks).flatten :=
        List.mem_flatten.mpr ⟨members, isBlock, belongs⟩
      have inside : state < size := List.mem_range.mp (listedOnce.mem_iff.mp listed)
      obtain ⟨others, othersFound, alsoBelongs, _⟩ := exists_place_of_mem inside listed
      rw [place_unique distinct.2 found othersFound belongs alsoBelongs]
      exact Vector.getElem?_eq_getElem inside
    · intro blockOf
      obtain ⟨inside, same⟩ := Vector.getElem?_eq_some_iff.mp blockOf
      obtain ⟨others, othersFound, belongs, _⟩ :=
        exists_place_of_mem inside (listedOnce.mem_iff.mpr (List.mem_range.mpr inside))
      have block_eq : (blockTable size blocks)[state] = block := same
      rw [block_eq, found] at othersFound
      exact Option.some.inj othersFound ▸ belongs
  · intro members isBlock
    exact distinct.1 members (List.mem_toArray.mp isBlock)

/-- Blocks are accepted when they list all states in range and no others. -/
theorem ofBlocks_eq_ok_iff {blocks : List (List Nat)} :
    ofBlocks size blocks = .ok partition ↔ (∀ state, state ∈ blocks.flatten ↔ state < size) ∧
      ∃ covered, partition = ofCover size blocks covered := by
  have inRange_iff : blocks.flatten.find? (fun state => decide (size ≤ state)) = none ↔
      ∀ state ∈ blocks.flatten, state < size := by
    simp only [List.find?_eq_none, decide_eq_true_eq, Nat.not_le]
  constructor
  · intro accepted
    rw [ofBlocks] at accepted
    split at accepted
    · cases accepted
    · rename_i inRange
      split at accepted
      · cases accepted
      · split at accepted
        · rename_i covered
          cases accepted
          refine ⟨fun state => ⟨inRange_iff.mp inRange state, covered_iff.mp covered state⟩, ?_⟩
          exact ⟨covered, rfl⟩
        · cases accepted
  · rintro ⟨listed, covered, rfl⟩
    have enough := size_le_length_flatten covered
    rw [ofBlocks, inRange_iff.mpr fun state => (listed state).mp]
    dsimp only
    rw [if_neg (by omega), dif_pos covered]

/-- Blocks that list every state once are accepted. -/
theorem exists_ofBlocks_eq_ok {blocks : List (List Nat)}
    (once : blocks.flatten.Perm (List.range size)) :
    ∃ covered, ofBlocks size blocks = .ok (ofCover size blocks covered) := by
  have listed (state : Nat) : state ∈ blocks.flatten ↔ state < size :=
    once.mem_iff.trans List.mem_range
  have covered := covered_iff.mpr fun state => (listed state).mpr
  exact ⟨covered, ofBlocks_eq_ok_iff.mpr ⟨listed, covered, rfl⟩⟩

section Test

variable {test : Nat → Bool}

theorem consistent_ofTest (size : Nat) (test : Nat → Bool) : (ofTest size test).Consistent := by
  apply consistent_ofCover
  simpa using List.filter_append_perm test (List.range size)

theorem occupied_filter_cons (states : List Nat) (test : Nat → Bool) (rest : List (List Nat)) :
    occupied (states.filter test :: rest) =
      if states.any test then states.filter test :: occupied rest else occupied rest := by
  have empty : (states.filter test).isEmpty = !states.any test := by
    rw [Bool.eq_iff_iff]
    simp
  rw [occupied, List.filter_cons, empty, Bool.not_not]
  rfl

/-- The table of the states that pass and of those that fail, where there are any. -/
theorem block?_ofTest (block : Nat) :
    (ofTest size test).block? block = (occupied [(List.range size).filter test,
      (List.range size).filter fun state => !test state])[block]? :=
  List.getElem?_toArray

theorem count_ofTest (size : Nat) (test : Nat → Bool) : (ofTest size test).count =
    (if (List.range size).any test then 1 else 0) +
      if (List.range size).any fun state => !test state then 1 else 0 := by
  change (occupied [(List.range size).filter test,
      (List.range size).filter fun state => !test state]).length = _
  rw [occupied_filter_cons, occupied_filter_cons]
  split <;> split <;> rfl

/-- The states that pass come first, if there are any. -/
theorem indexOf_ofTest {state : Nat} (inside : state < size) :
    (ofTest size test).indexOf state =
      if test state then 0 else if (List.range size).any test then 1 else 0 := by
  have listed {block : Nat} {members : List Nat}
      (found : (ofTest size test).block? block = some members) (belongs : state ∈ members) :
      (ofTest size test).indexOf state = block :=
    (((consistent_ofTest size test).mem_iff_indexOf found).mp belongs).2
  have inRange : state ∈ List.range size := List.mem_range.mpr inside
  cases passes : test state with
  | true =>
      have somePass : (List.range size).any test := List.any_eq_true.mpr ⟨state, inRange, passes⟩
      apply listed _ (List.mem_filter.mpr ⟨inRange, passes⟩)
      rw [block?_ofTest, occupied_filter_cons, if_pos somePass]
      rfl
  | false =>
      have fails : (!test state) = true := by rw [passes]; rfl
      have someFail : (List.range size).any fun state => !test state :=
        List.any_eq_true.mpr ⟨state, inRange, fails⟩
      have belongs : state ∈ (List.range size).filter fun state => !test state :=
        List.mem_filter.mpr ⟨inRange, fails⟩
      apply listed _ belongs
      rw [block?_ofTest, occupied_filter_cons, occupied_filter_cons, if_pos someFail]
      split <;> rfl

/-- The partition by a test puts two states together when the test says the same of them. -/
theorem indexOf_ofTest_eq_iff {left right : Nat} (leftInside : left < size)
    (rightInside : right < size) :
    (ofTest size test).indexOf left = (ofTest size test).indexOf right ↔
      test left = test right := by
  have somePass {state : Nat} (inside : state < size) (passes : test state = true) :
      (List.range size).any test :=
    List.any_eq_true.mpr ⟨state, List.mem_range.mpr inside, passes⟩
  rw [indexOf_ofTest leftInside, indexOf_ofTest rightInside]
  cases leftPasses : test left with
  | true =>
      rw [if_pos rfl, if_pos (somePass leftInside leftPasses)]
      cases test right <;> simp
  | false =>
      cases rightPasses : test right with
      | true => simp [somePass rightInside rightPasses]
      | false => simp

end Test

/-! ## Division -/

section Divide

variable {block : Nat} {keep off : List Nat} {keepNonempty : keep ≠ []} {offNonempty : off ≠ []}

theorem block?_divide (inside : block < partition.count) (other : Nat) :
    (partition.divide block keep off keepNonempty offNonempty).block? other =
      if other = partition.count then some off
      else if other = block then some keep
      else partition.block? other := by
  change ((partition.blocks.setIfInBounds block keep).push off)[other]? = _
  rw [Array.getElem?_push, Array.size_setIfInBounds, Array.getElem?_setIfInBounds]
  unfold count at inside ⊢
  by_cases last : other = partition.blocks.size
  · simp [last]
  · by_cases same : other = block
    · subst same
      simp [last, inside]
    · simp [last, same, Ne.symm same, block?]

theorem indexOf_divide {state : Nat} (inside : state < size) :
    (partition.divide block keep off keepNonempty offNonempty).indexOf state =
      if state ∈ off then partition.count else partition.indexOf state := by
  have entry (table : Partition size) : table.indexOf state = table.blockOf[state] := by
    simp [indexOf, blockOf?, inside]
  rw [entry, entry]
  exact getElem_assign _ _ _ _ inside

section Agreeing

variable {members : List Nat} (agrees : partition.Agrees)
  (found : partition.block? block = some members) (parts : (keep ++ off).Perm members)

include agrees found parts

theorem Agrees.mem_parts_iff (state : Nat) :
    state ∈ keep ∨ state ∈ off ↔ state < size ∧ partition.indexOf state = block := by
  rw [← agrees.mem_iff_indexOf found, ← parts.mem_iff, List.mem_append]

/-- A block may be divided into a rearrangement of its members. -/
theorem Agrees.split_eq_ok :
    partition.split block keep off =
      .ok (partition.divide block keep off keepNonempty offNonempty) := by
  have inRange : off.find? (fun state => decide (size ≤ state)) = none := by
    rw [List.find?_eq_none]
    intro state moved
    simpa using ((agrees.mem_parts_iff found parts state).mp (Or.inr moved)).1
  have lengths := parts.length_eq
  rw [List.length_append] at lengths
  rw [split, dif_pos ⟨keepNonempty, offNonempty⟩, found]
  dsimp only
  rw [if_neg (Decidable.not_not.mpr lengths), inRange]

/-- A state that does not move is listed where it was. -/
theorem Agrees.mem_block?_divide_iff_of_unmoved {other state : Nat} {listed : List Nat}
    (listedFound : (partition.divide block keep off keepNonempty offNonempty).block? other =
      some listed) (unmoved : state ∉ off) :
    state ∈ listed ↔ state < size ∧ partition.indexOf state = other := by
  rw [block?_divide (lt_count_of_block? found)] at listedFound
  split at listedFound
  · rename_i last
    cases listedFound
    refine iff_of_false unmoved ?_
    intro ⟨inside, index⟩
    exact Nat.ne_of_lt (partition.indexOf_lt inside) (index.trans last)
  · split at listedFound
    · rename_i same
      cases listedFound
      rw [same, ← agrees.mem_parts_iff found parts, or_iff_left unmoved]
    · exact agrees.mem_iff_indexOf listedFound

variable (apart : ∀ state ∈ keep, state ∉ off)

include apart

/-- A state that moves is listed by the new block and by no other. -/
theorem Agrees.mem_block?_divide_iff_of_moved {other state : Nat} {listed : List Nat}
    (listedFound : (partition.divide block keep off keepNonempty offNonempty).block? other =
      some listed) (moved : state ∈ off) :
    state ∈ listed ↔ other = partition.count := by
  have index := ((agrees.mem_parts_iff found parts state).mp (Or.inr moved)).2
  rw [block?_divide (lt_count_of_block? found)] at listedFound
  split at listedFound
  · rename_i last
    cases listedFound
    exact iff_of_true moved last
  · rename_i earlier
    refine iff_of_false ?_ earlier
    intro belongs
    split at listedFound
    · cases listedFound
      exact apart state belongs moved
    · rename_i different
      have otherIndex := ((agrees.mem_iff_indexOf listedFound).mp belongs).2
      exact different (otherIndex.symm.trans index)

/-- Division into two parts without a common member keeps the tables in agreement. -/
theorem Agrees.divide :
    (partition.divide block keep off keepNonempty offNonempty).Agrees := by
  constructor
  intro other listed listedFound state
  rw [blockOf?_eq_some_iff]
  by_cases moved : state ∈ off
  · have inside := ((agrees.mem_parts_iff found parts state).mp (Or.inr moved)).1
    rw [agrees.mem_block?_divide_iff_of_moved found parts apart listedFound moved,
      indexOf_divide inside, if_pos moved, eq_comm]
    exact (and_iff_right inside).symm
  · rw [agrees.mem_block?_divide_iff_of_unmoved found parts listedFound moved]
    apply and_congr_right
    intro inside
    rw [indexOf_divide inside, if_neg moved]

end Agreeing

section Parts

variable {members : List Nat} (consistent : partition.Consistent)
  (found : partition.block? block = some members) (parts : (keep ++ off).Perm members)

include consistent found parts

theorem mem_parts_iff (state : Nat) :
    state ∈ keep ∨ state ∈ off ↔ state < size ∧ partition.indexOf state = block :=
  consistent.agrees.mem_parts_iff found parts state

theorem nodup_parts : (keep ++ off).Nodup :=
  parts.nodup_iff.mpr (consistent.nodup members (Array.mem_of_getElem? found))

theorem nodup_of_block?_divide {other : Nat} {listed : List Nat}
    (listedFound : (partition.divide block keep off keepNonempty offNonempty).block? other =
      some listed) : listed.Nodup := by
  have distinct := List.nodup_append.mp (nodup_parts consistent found parts)
  rw [block?_divide (lt_count_of_block? found)] at listedFound
  split at listedFound
  · cases listedFound
    exact distinct.2.1
  · split at listedFound
    · cases listedFound
      exact distinct.1
    · exact consistent.nodup listed (Array.mem_of_getElem? listedFound)

/-- Division into a rearrangement of the members keeps the tables in agreement. -/
theorem Consistent.divide :
    (partition.divide block keep off keepNonempty offNonempty).Consistent := by
  have apart := (List.nodup_append.mp (nodup_parts consistent found parts)).2.2
  constructor
  · exact (consistent.agrees.divide found parts fun state stays moves =>
      apart state stays state moves rfl).mem_iff
  · intro listed isBlock
    obtain ⟨other, listedFound⟩ := Array.mem_iff_getElem?.mp isBlock
    exact nodup_of_block?_divide consistent found parts listedFound

theorem split_eq_ok :
    partition.split block keep off =
      .ok (partition.divide block keep off keepNonempty offNonempty) :=
  consistent.agrees.split_eq_ok found parts

end Parts

/-- States lie together after a division when they lay together before and both or neither of
them moved. -/
theorem indexOf_divide_eq_iff {members : List Nat} (consistent : partition.Consistent)
    (found : partition.block? block = some members) (within : ∀ state ∈ off, state ∈ members)
    {left right : Nat} (leftInside : left < size) (rightInside : right < size) :
    (partition.divide block keep off keepNonempty offNonempty).indexOf left =
        (partition.divide block keep off keepNonempty offNonempty).indexOf right ↔
      partition.indexOf left = partition.indexOf right ∧ (left ∈ off ↔ right ∈ off) := by
  have came {state : Nat} (moved : state ∈ off) : partition.indexOf state = block :=
    ((consistent.mem_iff_indexOf found).mp (within state moved)).2
  have leftBelow := partition.indexOf_lt leftInside
  have rightBelow := partition.indexOf_lt rightInside
  rw [indexOf_divide leftInside, indexOf_divide rightInside]
  by_cases leftMoved : left ∈ off
  · by_cases rightMoved : right ∈ off
    · simp [leftMoved, rightMoved, came leftMoved, came rightMoved]
    · rw [if_pos leftMoved, if_neg rightMoved]
      exact iff_of_false (Nat.ne_of_gt rightBelow) fun same => rightMoved (same.2.mp leftMoved)
  · by_cases rightMoved : right ∈ off
    · rw [if_neg leftMoved, if_pos rightMoved]
      exact iff_of_false (Nat.ne_of_lt leftBelow) fun same => leftMoved (same.2.mpr rightMoved)
    · simp [leftMoved, rightMoved]

end Divide

end Partition

end Acceptors
