import Acceptors.Proofs.Exploration

/-!
Contract: the stack of pending branches is ordered and stays short.

Owns: the order of the branches on the stack, the target sets that they come from, the shape
that every turn of the loop keeps, the bounds that follow from it, and an automaton for which
the branches that are visited double with every symbol.
Does not own: which branches the loop visits, and its answer.

The branch on top of the stack is the furthest one. What is put in its place is one position
further than everything below, so each position that is waited for has been pushed at once,
for one target set, and only its smallest states are gone.
-/

namespace Acceptors

/-- A branch stands above another one if it is further in the word, or as far and in a smaller
state. -/
def Visit.Above (upper lower : Visit) : Prop :=
  lower.position < upper.position ∨
    lower.position = upper.position ∧ upper.state < lower.state

namespace Exploration

variable {automaton : Automaton} {word : Word} {exploration next : Exploration}

/-- The states are all that is reached on the symbol in front of a position: on the first symbol
from the initial states, and on a later one from the state of a branch that has been visited. -/
inductive Reached (automaton : Automaton) (word : Word) (visited : List Visit) :
    Nat → StateSet → Prop where
  | first {symbol : Nat} (found : word[0]? = some symbol) :
      Reached automaton word visited 1 (automaton.image automaton.initial symbol)
  | later {visit : Visit} {symbol : Nat} (seen : visit ∈ visited)
      (found : word[visit.position]? = some symbol) :
      Reached automaton word visited (visit.position + 1) (automaton.targets visit.state symbol)

theorem Reached.lt_size {visited : List Visit} {position : Nat} {targets : StateSet}
    (reached : Reached automaton word visited position targets) :
    ∀ state ∈ targets, state < automaton.size := by
  cases reached with
  | first found => exact fun _ belongs => Automaton.lt_size_of_mem_image belongs
  | later seen found => exact fun _ belongs => Automaton.lt_size_of_mem_targets belongs

theorem Reached.mono {visited more : List Visit} {position : Nat} {targets : StateSet}
    (reached : Reached automaton word visited position targets) (included : visited ⊆ more) :
    Reached automaton word more position targets := by
  cases reached with
  | first found => exact .first found
  | later seen found => exact .later (included seen) found

/-- The states of the branches at one position, from the top to the bottom of a stack. -/
def column (stack : List Visit) (position : Nat) : List Nat :=
  (stack.filter fun visit => visit.position = position).map Visit.state

theorem column_append (above below : List Visit) (position : Nat) :
    column (above ++ below) position = column above position ++ column below position := by
  simp [column]

theorem column_eq_nil {stack : List Visit} {position : Nat}
    (elsewhere : ∀ visit ∈ stack, visit.position ≠ position) : column stack position = [] := by
  simpa [column] using elsewhere

theorem mem_column {stack : List Visit} {visit : Visit} (listed : visit ∈ stack) :
    visit.state ∈ column stack visit.position :=
  List.mem_map.mpr ⟨visit, List.mem_filter.mpr ⟨listed, decide_eq_true rfl⟩, rfl⟩

theorem column_cons_suffix (visit : Visit) (rest : List Visit) (position : Nat) :
    column rest position <:+ column (visit :: rest) position :=
  ((List.suffix_cons visit rest).filter _).map _

theorem column_map_mk (states : List Nat) (position : Nat) :
    column (states.map fun state => Visit.mk state position) position = states := by
  simp [column, List.filter_map, Function.comp_def]

/-! ## The shape of the stack -/

/-- From the top to the bottom of the stack the branches come in order. Their positions lie
behind the first symbol and not behind the end of the word. At each position wait the greatest
states of one set that is reached there. -/
structure Shaped (automaton : Automaton) (word : Word) (exploration : Exploration) : Prop where
  ordered : exploration.stack.Pairwise Visit.Above
  position_pos : ∀ visit ∈ exploration.stack, 1 ≤ visit.position
  within : exploration.Within word
  together : ∀ visit ∈ exploration.stack, ∃ targets,
    Reached automaton word exploration.visited visit.position targets ∧
      column exploration.stack visit.position <:+ targets.toList

theorem pairwise_above_map {states : List Nat} (ascending : states.Pairwise (· < ·))
    (position : Nat) :
    (states.map fun state => Visit.mk state position).Pairwise Visit.Above :=
  List.pairwise_map.mpr (ascending.imp fun less => Or.inr ⟨rfl, less⟩)

theorem shaped_start (automaton : Automaton) (first : Nat) (rest : Word) :
    (start automaton first).Shaped automaton (first :: rest) := by
  have position_eq {visit : Visit} (listed : visit ∈ (start automaton first).stack) :
      visit.position = 1 := by
    rw [stack_start] at listed
    obtain ⟨state, _, rfl⟩ := List.mem_map.mp listed
    rfl
  refine ⟨?_, fun visit listed => Nat.le_of_eq (position_eq listed).symm,
    within_start automaton first rest, fun visit listed => ?_⟩
  · rw [stack_start]
    exact pairwise_above_map (automaton.image automaton.initial first).ascending 1
  · rw [position_eq listed, stack_start, column_map_mk]
    exact ⟨_, .first rfl, List.suffix_refl _⟩

/-- A turn ends with an empty stack, or puts the branches behind the topmost one in its place. -/
theorem stack_of_turn? (within : exploration.Within word)
    (turned : exploration.turn? automaton word = some next) :
    next.stack = [] ∨ ∃ visit rest, exploration.stack = visit :: rest ∧
      next.visited = exploration.visited ++ [visit] ∧
      next.stack = automaton.nextVisits word visit ++ rest := by
  cases running : exploration.answer? with
  | some answer =>
      rw [turn?_of_answered running] at turned
      cases turned
  | none =>
      cases waiting : exploration.stack with
      | nil =>
          rw [turn?_of_stack_eq_nil running waiting] at turned
          cases turned
          exact Or.inl waiting
      | cons visit rest =>
          refine Or.inr ⟨visit, rest, rfl, ?_⟩
          cases reached : automaton.isGoal word visit with
          | true =>
              -- Behind the end of the word there is nothing to be put in its place.
              have atEnd := (Automaton.isGoal_iff.mp reached).1
              have none : automaton.nextVisits word visit = [] := by
                rw [Automaton.nextVisits, List.getElem?_eq_none (Nat.le_of_eq atEnd.symm)]
              rw [turn?_of_stack_eq_cons running waiting, follow_of_isGoal reached] at turned
              cases turned
              refine ⟨rfl, ?_⟩
              rw [none, List.nil_append]
              simpa [waiting] using @stack_pop_append exploration [] _ _
          | false =>
              have inside := within visit (waiting ▸ List.mem_cons_self)
              obtain ⟨other, otherTurned, _, visited, replaced⟩ :=
                exists_turn?_eq_of_not_isGoal running waiting inside reached
              rw [turned] at otherTurned
              cases otherTurned
              exact ⟨visited, replaced⟩

/-- The branches behind a branch are in order and wait for one target set. -/
theorem nextVisits_eq (automaton : Automaton) (word : Word) (visit : Visit) :
    automaton.nextVisits word visit = [] ∨ ∃ symbol, word[visit.position]? = some symbol ∧
      automaton.nextVisits word visit =
        (automaton.targets visit.state symbol).toList.map fun state =>
          ⟨state, visit.position + 1⟩ := by
  unfold Automaton.nextVisits
  cases found : word[visit.position]? with
  | none => exact Or.inl rfl
  | some symbol => exact Or.inr ⟨symbol, rfl, rfl⟩

theorem pairwise_nextVisits (automaton : Automaton) (word : Word) (visit : Visit) :
    (automaton.nextVisits word visit).Pairwise Visit.Above := by
  rcases nextVisits_eq automaton word visit with none | ⟨symbol, _, targets_eq⟩
  · rw [none]
    exact .nil
  · rw [targets_eq]
    exact pairwise_above_map (automaton.targets visit.state symbol).ascending _

section Replaced

variable {visit : Visit} {rest : List Visit} (shaped : exploration.Shaped automaton word)
  (waiting : exploration.stack = visit :: rest)

include shaped waiting

/-- Everything on the stack is at most as far as what is on top. -/
theorem Shaped.position_le : ∀ other ∈ rest, other.position ≤ visit.position := by
  intro other listed
  have ordered := shaped.ordered
  rw [waiting] at ordered
  rcases (List.pairwise_cons.mp ordered).1 other listed with less | ⟨same, _⟩
  · exact Nat.le_of_lt less
  · exact Nat.le_of_eq same

theorem Shaped.pairwise_replaced :
    (automaton.nextVisits word visit ++ rest).Pairwise Visit.Above := by
  have ordered := shaped.ordered
  rw [waiting] at ordered
  refine List.pairwise_append.mpr ⟨pairwise_nextVisits automaton word visit,
    (List.pairwise_cons.mp ordered).2, fun new newListed old oldListed => Or.inl ?_⟩
  rw [(Automaton.position_of_mem_nextVisits newListed).1]
  exact Nat.lt_succ_of_le (shaped.position_le waiting old oldListed)

/-- The new branches wait for the targets of the branch that they replace, and nothing else is
as far as they are. -/
theorem Shaped.together_new (nonempty : automaton.nextVisits word visit ≠ []) :
    ∃ targets, Reached automaton word (exploration.visited ++ [visit]) (visit.position + 1)
        targets ∧
      column (automaton.nextVisits word visit ++ rest) (visit.position + 1) <:+
        targets.toList := by
  rcases nextVisits_eq automaton word visit with none | ⟨symbol, found, targets_eq⟩
  · exact absurd none nonempty
  · have noneBelow : column rest (visit.position + 1) = [] :=
      column_eq_nil fun old listed =>
        Nat.ne_of_lt (Nat.lt_succ_of_le (shaped.position_le waiting old listed))
    rw [column_append, noneBelow, List.append_nil, targets_eq, column_map_mk]
    exact ⟨_, .later (List.mem_append_right _ List.mem_cons_self) found, List.suffix_refl _⟩

/-- The branches below wait for what they have been waiting for. -/
theorem Shaped.together_old {other : Visit} (listed : other ∈ rest) :
    ∃ targets, Reached automaton word (exploration.visited ++ [visit]) other.position targets ∧
      column (automaton.nextVisits word visit ++ rest) other.position <:+ targets.toList := by
  have noneAbove : column (automaton.nextVisits word visit) other.position = [] :=
    column_eq_nil fun new newListed same => by
      have above := (Automaton.position_of_mem_nextVisits newListed).1
      have below := shaped.position_le waiting other listed
      omega
  have isWaiting : other ∈ exploration.stack := waiting ▸ List.mem_cons_of_mem visit listed
  obtain ⟨targets, reached, suffix⟩ := shaped.together other isWaiting
  rw [waiting] at suffix
  rw [column_append, noneAbove, List.nil_append]
  exact ⟨targets, reached.mono (List.subset_append_left _ _),
    (column_cons_suffix visit rest _).trans suffix⟩

end Replaced

/-- A turn keeps the shape of the stack. -/
theorem Shaped.turn? (shaped : exploration.Shaped automaton word)
    (turned : exploration.turn? automaton word = some next) : next.Shaped automaton word := by
  rcases stack_of_turn? shaped.within turned with
    cleared | ⟨visit, rest, waiting, visited, replaced⟩
  · constructor <;> simp [cleared, Within]
  · have position_eq {new : Visit} (listed : new ∈ automaton.nextVisits word visit) :
        new.position = visit.position + 1 := (Automaton.position_of_mem_nextVisits listed).1
    refine ⟨?_, fun other listed => ?_, shaped.within.replaced waiting replaced,
      fun other listed => ?_⟩
    · rw [replaced]
      exact shaped.pairwise_replaced waiting
    · rw [replaced] at listed
      rcases List.mem_append.mp listed with new | old
      · rw [position_eq new]
        exact Nat.succ_pos _
      · exact shaped.position_pos other (waiting ▸ List.mem_cons_of_mem visit old)
    · rw [replaced] at listed
      rw [replaced, visited]
      rcases List.mem_append.mp listed with new | old
      · rw [position_eq new]
        exact shaped.together_new waiting (List.ne_nil_of_mem new)
      · exact shaped.together_old waiting old

/-- Any number of turns keeps the shape of the stack. -/
theorem Shaped.turns? {count : Nat} (shaped : exploration.Shaped automaton word)
    (turned : turns? automaton word count exploration = some next) :
    next.Shaped automaton word := by
  induction count generalizing exploration with
  | zero =>
      cases turned
      exact shaped
  | succ count inductionHypothesis =>
      obtain ⟨after, first, others⟩ := Option.bind_eq_some_iff.mp turned
      exact inductionHypothesis (shaped.turn? first) others

/-! ## What follows from the shape -/

theorem mem_stack {visit : Visit} :
    visit ∈ exploration.stack ↔ visit ∈ exploration.pending.toList := by
  rw [stack, List.mem_reverse]

theorem Shaped.state_lt (shaped : exploration.Shaped automaton word) {visit : Visit}
    (listed : visit ∈ exploration.stack) : visit.state < automaton.size := by
  obtain ⟨targets, reached, suffix⟩ := shaped.together visit listed
  exact reached.lt_size visit.state (suffix.subset (mem_column listed))

/-- No branch waits twice, so there are at most as many as states and positions. -/
theorem Shaped.length_le (shaped : exploration.Shaped automaton word) :
    exploration.stack.length ≤ automaton.size * word.length := by
  have distinct : exploration.stack.Nodup := shaped.ordered.imp fun above same => by
    subst same
    rcases above with less | ⟨_, less⟩ <;> exact Nat.lt_irrefl _ less
  let places := (List.range automaton.size).flatMap fun state =>
    (List.range' 1 word.length).map (Visit.mk state)
  have inside : exploration.stack ⊆ places := by
    intro visit listed
    have lower := shaped.position_pos visit listed
    have upper := shaped.within visit listed
    exact List.mem_flatMap.mpr ⟨visit.state, List.mem_range.mpr (shaped.state_lt listed),
      List.mem_map.mpr ⟨visit.position, List.mem_range'_1.mpr ⟨lower, by omega⟩, rfl⟩⟩
  have length : places.length = automaton.size * word.length := by
    rw [Automaton.length_flatMap_map, List.length_range, List.length_range']
  exact length ▸ distinct.length_le_of_subset inside

/-- The states of the pending branches at a position, from the bottom to the top of the stack. -/
def statesAt (exploration : Exploration) (position : Nat) : List Nat :=
  (exploration.pending.toList.filter fun visit => visit.position = position).map Visit.state

theorem column_stack (exploration : Exploration) (position : Nat) :
    column exploration.stack position = (exploration.statesAt position).reverse := by
  rw [column, stack, List.filter_reverse, List.map_reverse, statesAt]

theorem Shaped.positions (shaped : exploration.Shaped automaton word) :
    (exploration.pending.toList.map Visit.position).Pairwise (· ≤ ·) := by
  have ordered := shaped.ordered
  rw [stack, List.pairwise_reverse] at ordered
  refine List.pairwise_map.mpr (ordered.imp fun above => ?_)
  rcases above with less | ⟨same, _⟩
  · exact Nat.le_of_lt less
  · exact Nat.le_of_eq same

/-- At a position where a branch waits, the states are what is left of one target set. -/
theorem Shaped.statesAt (shaped : exploration.Shaped automaton word) {position : Nat}
    (waits : exploration.statesAt position ≠ []) :
    ∃ targets, Reached automaton word exploration.visited position targets ∧
      (exploration.statesAt position).reverse <:+ targets.toList := by
  obtain ⟨state, listed⟩ := List.exists_mem_of_ne_nil _ waits
  obtain ⟨visit, isWaiting, _⟩ := List.mem_map.mp listed
  obtain ⟨isPending, atPosition⟩ := List.mem_filter.mp isWaiting
  rw [← column_stack, ← of_decide_eq_true atPosition]
  exact shaped.together visit (mem_stack.mpr isPending)

theorem Shaped.pairwise_statesAt (shaped : exploration.Shaped automaton word) (position : Nat) :
    (exploration.statesAt position).Pairwise (· > ·) := by
  by_cases empty : exploration.statesAt position = []
  · rw [empty]
    exact .nil
  · obtain ⟨targets, _, suffix⟩ := shaped.statesAt empty
    exact List.pairwise_reverse.mp (targets.ascending.sublist suffix.sublist)

theorem Shaped.length_statesAt_le (shaped : exploration.Shaped automaton word) (position : Nat) :
    (exploration.statesAt position).length ≤ automaton.size := by
  by_cases empty : exploration.statesAt position = []
  · rw [empty]
    exact Nat.zero_le _
  · obtain ⟨targets, reached, suffix⟩ := shaped.statesAt empty
    rw [← List.length_reverse]
    exact Nat.le_trans suffix.length_le (StateSet.size_le_of_forall_lt reached.lt_size)

end Exploration

/-! ## Branches that double -/

namespace Automaton

/-- Both states lead to both states, and none is accepting. -/
def crossroads : Automaton where
  toDraft := .ofEdges 2 1 (.ofList [0]) ∅ [⟨0, 0, 0⟩, ⟨0, 0, 1⟩, ⟨1, 0, 0⟩, ⟨1, 0, 1⟩]
  valid := Draft.valid_ofEdges (by decide) (by decide) (by decide) (by decide) (by decide)
    (by decide)

theorem toList_targets_crossroads {state : Nat} (inside : state < 2) :
    (crossroads.targets state 0).toList = [0, 1] := by
  have each : ∀ state < 2, (crossroads.targets state 0).toList = [0, 1] := by decide
  exact each state inside

/-- A descent visits twice as many branches for every further symbol. -/
theorem length_descent_crossroads {word : Word} (zeros : ∀ symbol ∈ word, symbol = 0)
    {ahead : Nat} {visit : Visit} (inside : visit.state < 2)
    (ends : visit.position + ahead = word.length) :
    (crossroads.descent word visit).length + 1 = Nat.pow 2 (ahead + 1) := by
  induction ahead generalizing visit with
  | zero =>
      have atEnd : word[visit.position]? = none := List.getElem?_eq_none (Nat.le_of_eq ends.symm)
      rw [descent_eq, nextVisits, atEnd]
      rfl
  | succ ahead inductionHypothesis =>
      have within : visit.position < word.length := by omega
      have symbol : word[visit.position]? = some 0 := by
        rw [List.getElem?_eq_getElem within, zeros _ (List.getElem_mem within)]
      have further : visit.position + 1 + ahead = word.length := by omega
      have left := @inductionHypothesis ⟨0, visit.position + 1⟩ Nat.zero_lt_two further
      have right := @inductionHypothesis ⟨1, visit.position + 1⟩ Nat.one_lt_two further
      have split : crossroads.nextVisits word visit =
          [⟨0, visit.position + 1⟩, ⟨1, visit.position + 1⟩] := by
        rw [nextVisits, symbol]
        simp only [toList_targets_crossroads inside, List.map_cons, List.map_nil]
      rw [descent_eq, split, List.flatMap_cons, List.flatMap_cons, List.flatMap_nil,
        List.append_nil, List.length_cons, List.length_append]
      have doubled : Nat.pow 2 (ahead + 1 + 1) = Nat.pow 2 (ahead + 1) * 2 := Nat.pow_succ _ _
      omega

theorem length_descents_crossroads (length : Nat) :
    (crossroads.descents 0 (List.replicate length 0)).length + 2 = Nat.pow 2 (length + 2) := by
  have first : (crossroads.image crossroads.initial 0).toList = [0, 1] := by decide
  have zeros : ∀ symbol ∈ 0 :: List.replicate length 0, symbol = 0 := by simp
  have ends : 1 + length = (0 :: List.replicate length 0).length := by
    rw [List.length_cons, List.length_replicate, Nat.add_comm]
  have left := @length_descent_crossroads _ zeros _ ⟨0, 1⟩ (by decide) ends
  have right := @length_descent_crossroads _ zeros _ ⟨1, 1⟩ (by decide) ends
  rw [descents, first, List.flatMap_cons, List.flatMap_cons, List.flatMap_nil, List.append_nil,
    List.length_append]
  have doubled : Nat.pow 2 (length + 2) = Nat.pow 2 (length + 1) * 2 := Nat.pow_succ _ _
  omega

end Automaton

namespace Exploration

open Automaton in
/-- The loop ends on a word of zeros after it has visited all descents. -/
theorem exists_turns?_crossroads (length : Nat) :
    ∃ count final, turns? crossroads (0 :: List.replicate length 0) count (start crossroads 0) =
        some final ∧
      final.turn? crossroads (0 :: List.replicate length 0) = none ∧
      final.visited.length + 2 = Nat.pow 2 (length + 2) := by
  obtain ⟨count, final, run, answered, visited⟩ :=
    exists_turns?_eq rfl (within_start crossroads 0 (List.replicate length 0))
  have noGoal (visit : Visit) : crossroads.isGoal (0 :: List.replicate length 0) visit = false :=
    Bool.eq_false_iff.mpr fun reached =>
      StateSet.not_mem_empty visit.state (isGoal_iff.mp reached).2
  rw [remaining_start, List.findIdx_eq_length_of_false fun visit _ => noGoal visit,
    List.take_of_length_le (Nat.le_succ _)] at visited
  refine ⟨count, final, run, turn?_of_answered answered, ?_⟩
  rw [visited]
  exact length_descents_crossroads length

/-- At every turn the positions on the stack do not decrease from bottom to top, and all of them
lie behind the first symbol and not behind the end of the word. The states that wait at one
position descend strictly from bottom to top and are left of one target set. So there are at
most as many of them as the automaton has states, and at most that many for every symbol of
the word in all. The branches that are visited can double with every symbol. -/
theorem pending_branches_bounded :
    (∀ (automaton : Automaton) (first : Nat) (rest : Word) (count : Nat)
      (exploration : Exploration),
      turns? automaton (first :: rest) count (start automaton first) = some exploration →
        (exploration.pending.toList.map Visit.position).Pairwise (· ≤ ·) ∧
        (∀ visit ∈ exploration.pending.toList,
          1 ≤ visit.position ∧ visit.position ≤ (first :: rest).length) ∧
        (∀ position, (exploration.statesAt position).Pairwise (· > ·) ∧
          (exploration.statesAt position).length ≤ automaton.size ∧
          (exploration.statesAt position ≠ [] → ∃ targets,
            Reached automaton (first :: rest) exploration.visited position targets ∧
              (exploration.statesAt position).reverse <:+ targets.toList)) ∧
        exploration.pending.size ≤ automaton.size * (first :: rest).length) ∧
    ∀ length, ∃ count final,
      turns? Automaton.crossroads (0 :: List.replicate length 0) count
          (start Automaton.crossroads 0) = some final ∧
        final.turn? Automaton.crossroads (0 :: List.replicate length 0) = none ∧
        final.visited.length + 2 = Nat.pow 2 (length + 2) := by
  refine ⟨fun automaton first rest count exploration turned => ?_, exists_turns?_crossroads⟩
  have shaped := (shaped_start automaton first rest).turns? turned
  refine ⟨shaped.positions, fun visit listed => ?_, fun position => ?_, ?_⟩
  · have isWaiting := mem_stack.mpr listed
    exact ⟨shaped.position_pos visit isWaiting, shaped.within visit isWaiting⟩
  · exact ⟨shaped.pairwise_statesAt position, shaped.length_statesAt_le position, shaped.statesAt⟩
  · have bound := shaped.length_le
    rwa [stack, List.length_reverse, Array.length_toList] at bound

/-- After two turns the greater state waits at the first two positions. -/
theorem pending_branches_of_crossroads :
    ∃ exploration, turns? Automaton.crossroads [0, 0, 0] 2 (start Automaton.crossroads 0) =
        some exploration ∧
      exploration.pending.toList = [⟨1, 1⟩, ⟨1, 2⟩, ⟨1, 3⟩, ⟨0, 3⟩] ∧
      (exploration.pending.toList.map Visit.position).Pairwise (· ≤ ·) ∧
      (∀ visit ∈ exploration.pending.toList, 1 ≤ visit.position ∧ visit.position ≤ 3) ∧
      (∀ position, (exploration.statesAt position).Pairwise (· > ·) ∧
        (exploration.statesAt position).length ≤ 2 ∧
        (exploration.statesAt position ≠ [] → ∃ targets,
          Reached Automaton.crossroads [0, 0, 0] exploration.visited position targets ∧
            (exploration.statesAt position).reverse <:+ targets.toList)) ∧
      exploration.pending.size ≤ 2 * 3 := by
  have turned : turns? Automaton.crossroads [0, 0, 0] 2 (start Automaton.crossroads 0) =
      some ⟨#[⟨1, 1⟩, ⟨1, 2⟩, ⟨1, 3⟩, ⟨0, 3⟩], [⟨0, 1⟩, ⟨0, 2⟩], none⟩ := by
    decide +kernel
  exact ⟨_, turned, rfl, pending_branches_bounded.1 Automaton.crossroads 0 [0, 0] 2 _ turned⟩

end Exploration

end Acceptors
