import Acceptors.Proofs.Growth
import Acceptors.Proofs.Merging

/-!
Contract: the blocks of the raw partition in closed form.

Owns: what passes do to listed blocks when signatures do not depend on the partition, the
classes of states with equal rows in the order of their least members, and the order in
which the raw partition lists these classes.
Does not own: signatures that are read from the partition.

A pass takes from every block that exists all members that differ from the first one and
puts them behind all blocks, where the next pass finds them. So of the accepting and of the
rejecting states each pass completes one class, and the two kinds of classes alternate.
-/

namespace Acceptors

section

variable {Signature : Type} [DecidableEq Signature] {view : Nat → Signature}

/-! ## Classes -/

/-- The members of a block that look like the first one. -/
def staying (view : Nat → Signature) : List Nat → List Nat
  | [] => []
  | first :: rest => alike view (first :: rest) first

/-- The members of a block that do not look like the first one. -/
def leaving (view : Nat → Signature) : List Nat → List Nat
  | [] => []
  | first :: rest => unlike view (first :: rest) first

/-- The members that look like no smaller one. -/
def leaders (view : Nat → Signature) (members : List Nat) : List Nat :=
  members.filter fun state => ∀ other ∈ members, other < state → view other ≠ view state

/-- The classes of members that look alike, in the order of their least members. -/
def classes (view : Nat → Signature) (members : List Nat) : List (List Nat) :=
  (leaders view members).map fun first => members.filter fun state => view state = view first

/-- The entries of two lists in turn, and then the rest of the longer list. -/
def alternate {Entry : Type} : List Entry → List Entry → List Entry
  | [], right => right
  | left, [] => left
  | first :: left, second :: right => first :: second :: alternate left right

@[simp] theorem alternate_nil_left {Entry : Type} (right : List Entry) :
    alternate [] right = right := by
  cases right <;> rfl

@[simp] theorem alternate_nil_right {Entry : Type} (left : List Entry) :
    alternate left [] = left := by
  cases left <;> rfl

theorem classes_nil : classes view [] = [] := by
  simp [classes, leaders]

theorem leaving_cons {first : Nat} {rest : List Nat} :
    leaving view (first :: rest) = rest.filter fun state => view state ≠ view first := by
  simp [leaving, unlike]

theorem leaders_cons {first : Nat} {rest : List Nat}
    (ascending : (first :: rest).Pairwise (· < ·)) :
    leaders view (first :: rest) = first :: leaders view (leaving view (first :: rest)) := by
  have above := (List.pairwise_cons.mp ascending).1
  have leads : ∀ other ∈ first :: rest, other < first → view other ≠ view first := by
    intro other belongs less
    rcases List.mem_cons.mp belongs with same | later
    · omega
    · have greater := above other later
      omega
  rw [leaders, List.filter_cons_of_pos (by simpa using leads), leaving_cons, leaders,
    List.filter_filter]
  congr 1
  apply List.filter_congr
  intro state belongs
  -- Members that look like the first one do not stand in the way of a state that does not.
  rw [← Bool.decide_and, decide_eq_decide]
  constructor
  · intro unseen
    refine ⟨fun other listed => unseen other ?_, ?_⟩
    · exact List.mem_cons_of_mem _ (List.mem_filter.mp listed).1
    · exact (unseen first List.mem_cons_self (above state belongs)).symm
  · rintro ⟨unseen, different⟩ other listed less
    by_cases same : view other = view first
    · rw [same]
      exact different.symm
    · rcases List.mem_cons.mp listed with rfl | later
      · exact absurd rfl same
      · exact unseen other (List.mem_filter.mpr ⟨later, by simpa using same⟩) less

/-- The first class is what stays, and the others are the classes of what leaves. -/
theorem classes_cons {first : Nat} {rest : List Nat}
    (ascending : (first :: rest).Pairwise (· < ·)) :
    classes view (first :: rest) =
      staying view (first :: rest) :: classes view (leaving view (first :: rest)) := by
  rw [classes, leaders_cons ascending, List.map_cons, classes]
  congr 1
  apply List.map_congr_left
  intro leader leads
  have different : view leader ≠ view first :=
    (mem_unlike_iff.mp (List.mem_filter.mp leads).1).2
  rw [leaving, unlike, List.filter_filter]
  apply List.filter_congr
  intro state _
  rw [← Bool.decide_and, decide_eq_decide]
  constructor
  · intro same
    exact ⟨same, same ▸ different⟩
  · exact fun same => same.1

theorem staying_eq_self {block : List Nat}
    (uniform : ∀ left ∈ block, ∀ right ∈ block, view left = view right) :
    staying view block = block := by
  cases block with
  | nil => rfl
  | cons first rest =>
      apply List.filter_eq_self.mpr
      intro state belongs
      simpa using uniform state belongs first List.mem_cons_self

theorem leaving_eq_nil {block : List Nat}
    (uniform : ∀ left ∈ block, ∀ right ∈ block, view left = view right) :
    leaving view block = [] := by
  cases block with
  | nil => rfl
  | cons first rest =>
      apply List.filter_eq_nil_iff.mpr
      intro state belongs
      simpa using uniform state belongs first List.mem_cons_self

theorem leaving_staying (block : List Nat) : leaving view (staying view block) = [] := by
  apply leaving_eq_nil
  cases block with
  | nil => exact fun _ listed => absurd listed List.not_mem_nil
  | cons first rest =>
      intro left leftStays right rightStays
      exact (mem_alike_iff.mp leftStays).2.trans (mem_alike_iff.mp rightStays).2.symm

theorem staying_eq_self_of_leaving_eq_nil {block : List Nat} (nothing : leaving view block = []) :
    staying view block = block := by
  cases block with
  | nil => rfl
  | cons first rest =>
      apply List.filter_eq_self.mpr
      intro state belongs
      simpa using List.filter_eq_nil_iff.mp nothing state belongs

theorem pairwise_leaving {block : List Nat} (ascending : block.Pairwise (· < ·)) :
    (leaving view block).Pairwise (· < ·) := by
  cases block with
  | nil => exact .nil
  | cons first rest =>
      rw [leaving, unlike]
      exact ascending.filter _

/-! ## One pass -/

variable {size : Nat}

open Acceptors.Partition (occupied)

theorem occupied_append (left right : List (List Nat)) :
    occupied (left ++ right) = occupied left ++ occupied right :=
  List.filter_append left right

/-- Examining the block behind `done` divides it and puts what leaves behind all blocks. -/
theorem blocks_examine {progress : Progress size Signature} {done behind : List (List Nat)}
    {block : List Nat} (blocks_eq : progress.partition.blocks.toList = done ++ block :: behind) :
    (examine (fun _ => view) progress done.length).partition.blocks.toList =
        done ++ staying view block :: behind ++ occupied [leaving view block] ∧
      (examine (fun _ => view) progress done.length).divisions.length =
        progress.divisions.length + (occupied [leaving view block]).length := by
  have found : progress.partition.block? done.length = some block := by
    rw [Partition.block?, ← Array.getElem?_toList, blocks_eq]
    simp
  rcases examine_cases (fun _ => view) progress done.length with ⟨unchanged, uniform⟩ |
    ⟨first, rest, different, foundAgain, divided⟩
  · have alikeAll := uniform block found
    rw [unchanged, staying_eq_self alikeAll, leaving_eq_nil alikeAll, blocks_eq]
    simp [occupied]
  · rw [found, Option.some.injEq] at foundAgain
    subst foundAgain
    have kept : occupied [leaving view (first :: rest)] = [leaving view (first :: rest)] := by
      simpa [occupied, leaving] using different
    rw [divided, kept]
    constructor
    · rw [Partition.divideBy, Partition.divide, Array.toList_push, Array.toList_setIfInBounds,
        blocks_eq, List.set_append_right _ _ (Nat.le_refl _), Nat.sub_self, List.set_cons_zero]
      rfl
    · rw [List.length_append]
      rfl

/-- Examining the blocks `todo` one after the other divides each of them once. -/
theorem blocks_foldl_examine (todo : List (List Nat)) {progress : Progress size Signature}
    {done fresh : List (List Nat)}
    (blocks_eq : progress.partition.blocks.toList = done ++ todo ++ fresh) :
    ((List.range' done.length todo.length).foldl (examine fun _ => view)
        progress).partition.blocks.toList =
        done ++ todo.map (staying view) ++ fresh ++ occupied (todo.map (leaving view)) ∧
      ((List.range' done.length todo.length).foldl (examine fun _ => view)
        progress).divisions.length =
        progress.divisions.length + (occupied (todo.map (leaving view))).length := by
  induction todo generalizing progress done fresh with
  | nil =>
      simp only [List.append_nil] at blocks_eq
      simp [occupied, blocks_eq]
  | cons block rest inductionHypothesis =>
      have examined := @blocks_examine _ _ view _ progress done (rest ++ fresh) block
        (by simpa using blocks_eq)
      have later := @inductionHypothesis (examine (fun _ => view) progress done.length)
        (done ++ [staying view block]) (fresh ++ occupied [leaving view block])
        (by simpa using examined.1)
      rw [List.length_append, List.length_singleton] at later
      rw [List.length_cons, List.range'_succ, List.foldl_cons, later.1, later.2, examined.2,
        List.map_cons, List.map_cons,
        ← List.singleton_append (l := rest.map (leaving view)), occupied_append,
        List.length_append]
      simp [Nat.add_assoc]

/-- A pass divides every block once. -/
theorem blocks_pass (partition : Partition size) :
    (pass (fun _ => view) partition).partition.blocks.toList =
        partition.blocks.toList.map (staying view) ++
          occupied (partition.blocks.toList.map (leaving view)) ∧
      (pass (fun _ => view) partition).divisions.length =
        (occupied (partition.blocks.toList.map (leaving view))).length := by
  have folded := @blocks_foldl_examine _ _ view size partition.blocks.toList ⟨partition, []⟩ [] []
    (by simp)
  rw [List.length_nil, Array.length_toList, ← List.range_eq_range'] at folded
  simpa [pass, Partition.count] using folded

/-! ## All passes -/

theorem occupied_pair_eq_nil_iff {left right : List Nat} :
    occupied [left, right] = [] ↔ left = [] ∧ right = [] := by
  simp [occupied]

/-- A pass over blocks of which only the last two may still be divided. -/
theorem blocks_pass_of_settled {partition : Partition size} {done : List (List Nat)}
    {left right : List Nat} (blocks_eq : partition.blocks.toList = done ++ occupied [left, right])
    (settled : ∀ block ∈ done, leaving view block = []) :
    (pass (fun _ => view) partition).partition.blocks.toList =
        done ++ (occupied [left, right]).map (staying view) ++
          occupied [leaving view left, leaving view right] ∧
      (pass (fun _ => view) partition).divisions.length =
        (occupied [leaving view left, leaving view right]).length := by
  have kept : done.map (staying view) = done := by
    have same : ∀ block ∈ done, staying view block = id block :=
      fun block listed => staying_eq_self_of_leaving_eq_nil (settled block listed)
    rw [List.map_congr_left same, List.map_id]
  have left_over : occupied (partition.blocks.toList.map (leaving view)) =
      occupied [leaving view left, leaving view right] := by
    rw [blocks_eq, List.map_append, List.map_congr_left settled, occupied_append]
    cases left <;> cases right <;> simp [occupied, leaving, List.filter_cons]
  rw [(blocks_pass partition).1, (blocks_pass partition).2, left_over, blocks_eq, List.map_append,
    kept]
  exact ⟨rfl, rfl⟩

/-- The first classes of two lists come first, and then the other classes alternate. -/
theorem alternate_classes {left right : List Nat} (leftAscending : left.Pairwise (· < ·))
    (rightAscending : right.Pairwise (· < ·)) :
    alternate (classes view left) (classes view right) =
      (occupied [left, right]).map (staying view) ++
        alternate (classes view (leaving view left)) (classes view (leaving view right)) := by
  cases left with
  | nil =>
      cases right with
      | nil => rfl
      | cons first rest => simp [classes_nil, classes_cons rightAscending, occupied, leaving]
  | cons first rest =>
      cases right with
      | nil => simp [classes_nil, classes_cons leftAscending, occupied, leaving]
      | cons other others =>
          rw [classes_cons leftAscending, classes_cons rightAscending]
          rfl

theorem length_classes {members : List Nat} (ascending : members.Pairwise (· < ·)) :
    (classes view members).length =
      if members = [] then 0 else (classes view (leaving view members)).length + 1 := by
  cases members with
  | nil => rfl
  | cons first rest => rw [classes_cons ascending, List.length_cons, if_neg (List.cons_ne_nil _ _)]

/-- One pass completes one class of each list that has some left. -/
theorem max_length_classes {left right : List Nat} (leftAscending : left.Pairwise (· < ·))
    (rightAscending : right.Pairwise (· < ·)) (nonempty : ¬(left = [] ∧ right = [])) :
    max (classes view left).length (classes view right).length =
      max (classes view (leaving view left)).length
        (classes view (leaving view right)).length + 1 := by
  rw [length_classes leftAscending, length_classes rightAscending]
  have leavingNothing {members : List Nat} (empty : members = []) :
      (classes view (leaving view members)).length = 0 := by
    rw [empty]
    rfl
  by_cases leftEmpty : left = []
  · have rightNonempty : right ≠ [] := fun empty => nonempty ⟨leftEmpty, empty⟩
    rw [if_pos leftEmpty, if_neg rightNonempty, leavingNothing leftEmpty]
    omega
  · by_cases rightEmpty : right = []
    · rw [if_neg leftEmpty, if_pos rightEmpty, leavingNothing rightEmpty]
      omega
    · rw [if_neg leftEmpty, if_neg rightEmpty]
      omega

/-- The refinement of two blocks by a fixed view, behind blocks that it leaves as they are. -/
theorem blocks_refine {partition : Partition size} {done : List (List Nat)} {left right : List Nat}
    (blocks_eq : partition.blocks.toList = done ++ occupied [left, right])
    (settled : ∀ block ∈ done, leaving view block = [])
    (leftAscending : left.Pairwise (· < ·)) (rightAscending : right.Pairwise (· < ·))
    (nonempty : ¬(left = [] ∧ right = [])) :
    (refine (fun _ => view) partition).partition.blocks.toList =
        done ++ alternate (classes view left) (classes view right) ∧
      (refine (fun _ => view) partition).passes =
        max (classes view left).length (classes view right).length := by
  fun_induction refine (fun _ => view) partition generalizing done left right with
  | case1 partition progress =>
      rename_i quiet
      obtain ⟨blocks, divisions⟩ := blocks_pass_of_settled blocks_eq settled
      have none : occupied [leaving view left, leaving view right] = [] := by
        rw [← List.length_eq_zero_iff, ← divisions]
        exact List.isEmpty_iff_length_eq_zero.mp quiet
      obtain ⟨leftDone, rightDone⟩ := occupied_pair_eq_nil_iff.mp none
      rw [alternate_classes leftAscending rightAscending,
        max_length_classes leftAscending rightAscending nonempty, leftDone, rightDone]
      constructor
      · show (pass (fun _ => view) partition).partition.blocks.toList = _
        rw [blocks, none]
        simp [classes_nil]
      · rfl
  | case2 partition progress divided =>
      rename_i later inductionHypothesis
      obtain ⟨blocks, divisions⟩ := blocks_pass_of_settled blocks_eq settled
      have settledLater : ∀ block ∈ done ++ (occupied [left, right]).map (staying view),
          leaving view block = [] := by
        intro block listed
        rcases List.mem_append.mp listed with earlier | now
        · exact settled block earlier
        · obtain ⟨whole, _, rfl⟩ := List.mem_map.mp now
          exact leaving_staying whole
      have some : ¬(leaving view left = [] ∧ leaving view right = []) := by
        intro none
        rw [occupied_pair_eq_nil_iff.mpr none] at divisions
        exact divided (List.isEmpty_iff_length_eq_zero.mpr divisions)
      obtain ⟨finalBlocks, finalPasses⟩ := inductionHypothesis blocks settledLater
        (pairwise_leaving leftAscending) (pairwise_leaving rightAscending) some
      constructor
      · show later.partition.blocks.toList = _
        rw [finalBlocks, alternate_classes leftAscending rightAscending, List.append_assoc]
      · show later.passes + 1 = _
        rw [finalPasses, max_length_classes leftAscending rightAscending nonempty]

end

namespace Automaton

/-- The classes of the accepting or of the rejecting states with equal rows, in the order of
their least members. -/
def rowClasses (automaton : Automaton) (accepting : Bool) : List (List Nat) :=
  classes automaton.row
    (automaton.states.filter fun state => automaton.isAccepting state = accepting)

theorem pairwise_filter_states (automaton : Automaton) (test : Nat → Bool) :
    (automaton.states.filter test).Pairwise (· < ·) :=
  List.pairwise_lt_range.filter _

theorem blocks_acceptancePartition (automaton : Automaton) :
    automaton.acceptancePartition.blocks.toList = Partition.occupied [
      automaton.states.filter fun state => automaton.isAccepting state = true,
      automaton.states.filter fun state => automaton.isAccepting state = false] := by
  simp [acceptancePartition, Partition.ofTest, Partition.ofCover, states]

theorem accepting_or_rejecting_ne_nil (automaton : Automaton) :
    ¬(automaton.states.filter (fun state => automaton.isAccepting state = true) = [] ∧
      automaton.states.filter (fun state => automaton.isAccepting state = false) = []) := by
  have listed : 0 ∈ automaton.states := List.mem_range.mpr automaton.valid.size_pos
  rintro ⟨noneAccepting, noneRejecting⟩
  cases accepting : automaton.isAccepting 0 with
  | true => simpa [accepting] using List.filter_eq_nil_iff.mp noneAccepting 0 listed
  | false => simpa [accepting] using List.filter_eq_nil_iff.mp noneRejecting 0 listed

/-- The raw partition of a deterministic automaton lists the classes of accepting states and
the classes of rejecting states in turn, first the accepting ones, and then the rest of those
of which there are more. There are as many passes as there are classes of that kind. -/
theorem refinement_alternates (automaton : Automaton)
    (deterministic : automaton.checkDeterministic = .ok ()) :
    ∃ refinement, automaton.refinement .successors = .ok refinement ∧
      automaton.partitionBy .successors = .ok refinement.partition ∧
      refinement.partition.Consistent ∧
      refinement.partition.blocks.toList =
        alternate (automaton.rowClasses true) (automaton.rowClasses false) ∧
      (∀ members ∈ refinement.partition.blocks, members.Pairwise (· < ·)) ∧
      refinement.passes =
        max (automaton.rowClasses true).length (automaton.rowClasses false).length := by
  have unambiguous := checkDeterministic_eq_ok_iff.mp deterministic
  obtain ⟨blocks, passes⟩ := @blocks_refine _ _ automaton.row _ automaton.acceptancePartition [] _ _
    automaton.blocks_acceptancePartition (by simp) (pairwise_filter_states _ _)
    (pairwise_filter_states _ _) automaton.accepting_or_rejecting_ne_nil
  have refined := automaton.refineBy_eq .successors
  refine ⟨automaton.refineBy .successors, ?_, partitionBy_eq_ok unambiguous .successors,
    (automaton.congruence_refineBy .successors).consistent, ?_, ?_, ?_⟩
  · rw [refinement, deterministic]
  · rw [refined]
    exact blocks
  · rw [refined]
    exact survives_ascending.refine (Partition.ascending_ofTest _ _)
  · rw [refined]
    exact passes

/-- Three classes of accepting and two classes of rejecting states. The two classes with a
transition to 0 differ in acceptance only. -/
def unevenClasses : Automaton where
  toDraft := .ofEdges 6 1 (.ofList [0]) (.ofList [1, 3, 5])
    [⟨0, 0, 0⟩, ⟨1, 0, 0⟩, ⟨2, 0, 1⟩, ⟨3, 0, 1⟩, ⟨4, 0, 0⟩]
  valid := Draft.valid_ofEdges (by decide) (by decide) (by decide) (by decide) (by decide)
    (by decide)

theorem refinement_unevenClasses_alternates :
    unevenClasses.checkDeterministic = .ok () ∧
    unevenClasses.rowClasses true = [[1], [3], [5]] ∧
    unevenClasses.rowClasses false = [[0, 4], [2]] ∧
    ∃ refinement, unevenClasses.refinement .successors = .ok refinement ∧
      unevenClasses.partitionBy .successors = .ok refinement.partition ∧
      refinement.partition.Consistent ∧
      refinement.partition.blocks.toList = [[1], [0, 4], [3], [2], [5]] ∧
      (∀ members ∈ refinement.partition.blocks, members.Pairwise (· < ·)) ∧
      refinement.passes = 3 := by
  have deterministic : unevenClasses.checkDeterministic = .ok () := rfl
  have accepting : unevenClasses.rowClasses true = [[1], [3], [5]] := by decide +kernel
  have rejecting : unevenClasses.rowClasses false = [[0, 4], [2]] := by decide +kernel
  obtain ⟨refinement, refines, partitions, consistent, blocks, ascending, passes⟩ :=
    refinement_alternates unevenClasses deterministic
  rw [accepting, rejecting] at blocks passes
  exact ⟨deterministic, accepting, rejecting, refinement, refines, partitions, consistent, blocks,
    ascending, passes⟩

end Automaton

end Acceptors
