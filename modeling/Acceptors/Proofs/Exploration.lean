import Acceptors.Exploration
import Acceptors.Proofs.Simulation
import Mathlib.Logic.Basic

/-!
Contract: the loop over one stack visits what a recursion would visit, in the same order.

Owns: the descent from a branch as a recursion over the rest of the word, what a turn of the
loop does to the stack, and the branches and the answer with which the loop ends.
Does not own: the order of the positions on the stack, and how many branches wait there.

What is still to be visited is, at every turn, the descents from the pending branches, from
the top of the stack to its bottom. A turn takes the first of these visits and leaves the
others, so their number says when the loop ends, although the stack may grow meanwhile.
-/

namespace Acceptors

/-- The branch with what is still to be read in the place of its position. -/
def Visit.branch (visit : Visit) (word : Word) : Branch :=
  ⟨visit.state, word.drop visit.position⟩

namespace Automaton

/-! ## The recursion -/

/-- The branch and, if there is a symbol at its position, the descents from the successors of
its state on this symbol, in ascending order. No branch is left out because it was met before. -/
def descent (automaton : Automaton) (word : Word) (visit : Visit) : List Visit :=
  visit ::
    if inside : visit.position < word.length then
      (automaton.targets visit.state word[visit.position]).toList.flatMap fun state =>
        automaton.descent word ⟨state, visit.position + 1⟩
    else []
termination_by word.length - visit.position

/-- The branch has come to the end of the word in an accepting state. -/
def isGoal (automaton : Automaton) (word : Word) (visit : Visit) : Bool :=
  visit.position == word.length && automaton.isAccepting visit.state

/-- All descents for a word that begins with a symbol. -/
def descents (automaton : Automaton) (first : Nat) (rest : Word) : List Visit :=
  (automaton.image automaton.initial first).toList.flatMap fun state =>
    automaton.descent (first :: rest) ⟨state, 1⟩

/-- The branches right behind a branch. -/
def nextVisits (automaton : Automaton) (word : Word) (visit : Visit) : List Visit :=
  match word[visit.position]? with
  | none => []
  | some symbol =>
      (automaton.targets visit.state symbol).toList.map fun state =>
        ⟨state, visit.position + 1⟩

variable {automaton : Automaton} {word : Word} {visit : Visit}

theorem descent_eq (automaton : Automaton) (word : Word) (visit : Visit) :
    automaton.descent word visit =
      visit :: (automaton.nextVisits word visit).flatMap (automaton.descent word) := by
  rw [descent, nextVisits]
  by_cases inside : visit.position < word.length
  · rw [dif_pos inside, List.getElem?_eq_getElem inside, List.flatMap_map]
  · rw [dif_neg inside, List.getElem?_eq_none (Nat.le_of_not_lt inside)]
    rfl

theorem position_of_mem_nextVisits {next : Visit}
    (listed : next ∈ automaton.nextVisits word visit) :
    next.position = visit.position + 1 ∧ next.position ≤ word.length := by
  unfold nextVisits at listed
  split at listed
  · exact absurd listed List.not_mem_nil
  · rename_i found
    obtain ⟨state, _, rfl⟩ := List.mem_map.mp listed
    exact ⟨rfl, (List.getElem?_eq_some_iff.mp found).1⟩

theorem isGoal_iff :
    automaton.isGoal word visit = true ↔
      visit.position = word.length ∧ visit.state ∈ automaton.accepting := by
  rw [isGoal, Bool.and_eq_true_iff, beq_iff_eq, isAccepting_iff]

/-! ## Goals and promising branches -/

theorem continuations_branch :
    automaton.continuations (visit.branch word) =
      (automaton.nextVisits word visit).map fun next => next.branch word := by
  unfold continuations nextVisits Visit.branch
  by_cases inside : visit.position < word.length
  · rw [List.drop_eq_getElem_cons inside, List.getElem?_eq_getElem inside, List.map_map]
    rfl
  · rw [List.drop_eq_nil_of_le (Nat.le_of_not_lt inside),
      List.getElem?_eq_none (Nat.le_of_not_lt inside)]
    rfl

theorem succeeds_branch (inside : visit.position ≤ word.length) :
    automaton.succeeds (visit.branch word) = automaton.isGoal word visit := by
  have atEnd : (word.drop visit.position).isEmpty = (visit.position == word.length) := by
    rw [Bool.eq_iff_iff, List.isEmpty_iff, List.drop_eq_nil_iff, beq_iff_eq]
    omega
  rw [succeeds, Visit.branch, atEnd, isGoal]

/-- A descent meets a goal when some run that continues its first branch is accepting. -/
theorem any_isGoal_descent_iff {visit : Visit} (inside : visit.position ≤ word.length) :
    (automaton.descent word visit).any (automaton.isGoal word) = true ↔
      automaton.Promising (visit.branch word) := by
  have behind : (∃ next ∈ automaton.nextVisits word visit,
      (automaton.descent word next).any (automaton.isGoal word) = true) ↔
      ∃ next ∈ automaton.nextVisits word visit, automaton.Promising (next.branch word) :=
    exists_congr fun next => and_congr_right fun listed =>
      any_isGoal_descent_iff (position_of_mem_nextVisits listed).2
  rw [promising_iff, succeeds_branch inside, continuations_branch, descent_eq, List.any_cons,
    List.any_flatMap, Bool.or_eq_true_iff, List.any_eq_true, behind]
  simp only [List.mem_map, exists_exists_and_eq_and]
termination_by word.length - visit.position
decreasing_by
  have further := position_of_mem_nextVisits listed
  omega

/-- The descents for a word meet a goal when the word is accepted. -/
theorem any_isGoal_descents {first : Nat} {rest : Word} :
    (automaton.descents first rest).any (automaton.isGoal (first :: rest)) =
      automaton.accepts (first :: rest) := by
  apply Bool.eq_iff_iff.mpr
  show _ ↔ automaton.search (automaton.firstBranches first rest) = true
  rw [search_eq_true_iff, firstBranches, StateSet.branches, descents, List.any_flatMap,
    List.any_eq_true]
  simp only [List.mem_map, exists_exists_and_eq_and]
  exact exists_congr fun state => and_congr_right fun _ =>
    any_isGoal_descent_iff (Nat.succ_le_succ (Nat.zero_le rest.length))

end Automaton

namespace Exploration

variable {automaton : Automaton} {word : Word} {exploration next : Exploration}
variable {visit : Visit} {rest : List Visit}

/-! ## One turn -/

/-- The pending branches from the top of the stack to its bottom. -/
def stack (exploration : Exploration) : List Visit := exploration.pending.toList.reverse

theorem head?_stack : exploration.stack.head? = exploration.pending.back? := by
  rw [stack, List.head?_reverse, Array.getLast?_toList]

/-- No pending branch has a position behind the end of the word. -/
def Within (word : Word) (exploration : Exploration) : Prop :=
  ∀ visit ∈ exploration.stack, visit.position ≤ word.length

/-- What is put in the place of the top of the stack ends in front of the other branches. -/
theorem stack_pop_append (above visited : List Visit) (answer? : Option Bool) :
    stack ⟨exploration.pending.pop ++ above.toArray.reverse, visited, answer?⟩ =
      above ++ exploration.stack.tail := by
  simp [stack]

theorem push_targets (pending : Array Visit) {symbol : Nat}
    (found : word[visit.position]? = some symbol) :
    push pending (automaton.targets visit.state symbol) (visit.position + 1) =
      pending ++ (automaton.nextVisits word visit).toArray.reverse := by
  rw [push, Automaton.nextVisits, found]

theorem push_empty (pending : Array Visit) (position : Nat) :
    push pending ∅ position = pending := by
  have none : (∅ : StateSet).toList = [] := rfl
  simp [push, none]

theorem follow_of_isGoal (reached : automaton.isGoal word visit = true) :
    exploration.follow automaton word visit = { exploration with answer? := some true } := by
  obtain ⟨atEnd, accepted⟩ := Bool.and_eq_true_iff.mp reached
  rw [follow, List.getElem?_eq_none (Nat.le_of_eq (beq_iff_eq.mp atEnd).symm)]
  exact if_pos accepted

theorem follow_of_not_isGoal (inside : visit.position ≤ word.length)
    (missed : automaton.isGoal word visit = false) :
    exploration.follow automaton word visit =
      { exploration with
        pending := exploration.pending ++ (automaton.nextVisits word visit).toArray.reverse } := by
  cases found : word[visit.position]? with
  | none =>
      have atEnd : visit.position = word.length :=
        Nat.le_antisymm inside (List.getElem?_eq_none_iff.mp found)
      have refused : automaton.isAccepting visit.state = false := by
        simpa [Automaton.isGoal, atEnd] using missed
      rw [follow, Automaton.nextVisits, found]
      simp [refused]
  | some symbol =>
      rw [← push_targets _ found, follow, found]
      cases moved : automaton.successors? visit.state symbol with
      | none =>
          have noTargets : automaton.targets visit.state symbol = ∅ :=
            congrArg (Option.getD · ∅) moved
          simp only [moved, noTargets, push_empty]
      | some targets =>
          have someTargets : automaton.targets visit.state symbol = targets :=
            congrArg (Option.getD · ∅) moved
          simp only [moved, someTargets]

theorem turn?_of_stack_eq_nil (running : exploration.answer? = none)
    (finished : exploration.stack = []) :
    exploration.turn? automaton word = some { exploration with answer? := some false } := by
  have nonePending : exploration.pending.back? = none := by
    rw [← head?_stack, finished, List.head?_nil]
  rw [turn?, running, nonePending]

theorem turn?_of_stack_eq_cons (running : exploration.answer? = none)
    (waiting : exploration.stack = visit :: rest) :
    exploration.turn? automaton word =
      some (follow ⟨exploration.pending.pop, exploration.visited ++ [visit], none⟩
        automaton word visit) := by
  have last : exploration.pending.back? = some visit := by
    rw [← head?_stack, waiting, List.head?_cons]
  rw [turn?, running, last]

/-- A goal on top of the stack is the last visit. -/
theorem exists_turn?_eq_of_isGoal (running : exploration.answer? = none)
    (waiting : exploration.stack = visit :: rest) (reached : automaton.isGoal word visit = true) :
    ∃ next, exploration.turn? automaton word = some next ∧ next.answer? = some true ∧
      next.visited = exploration.visited ++ [visit] := by
  rw [turn?_of_stack_eq_cons running waiting, follow_of_isGoal reached]
  exact ⟨_, rfl, rfl, rfl⟩

/-- Any other branch on top of the stack gives way to the branches behind it. -/
theorem exists_turn?_eq_of_not_isGoal (running : exploration.answer? = none)
    (waiting : exploration.stack = visit :: rest) (inside : visit.position ≤ word.length)
    (missed : automaton.isGoal word visit = false) :
    ∃ next, exploration.turn? automaton word = some next ∧ next.answer? = none ∧
      next.visited = exploration.visited ++ [visit] ∧
      next.stack = automaton.nextVisits word visit ++ rest := by
  have replaced := @stack_pop_append exploration (automaton.nextVisits word visit)
  rw [waiting] at replaced
  rw [turn?_of_stack_eq_cons running waiting, follow_of_not_isGoal inside missed]
  exact ⟨_, rfl, rfl, rfl, replaced _ _⟩

theorem Within.replaced (within : exploration.Within word)
    (waiting : exploration.stack = visit :: rest)
    (replaced : next.stack = automaton.nextVisits word visit ++ rest) : next.Within word := by
  intro other listed
  rw [replaced] at listed
  rcases List.mem_append.mp listed with new | old
  · exact (Automaton.position_of_mem_nextVisits new).2
  · exact within other (waiting ▸ List.mem_cons_of_mem visit old)

theorem turn?_of_answered {answer : Bool} (answered : exploration.answer? = some answer) :
    exploration.turn? automaton word = none := by
  rw [turn?, answered]

/-! ## All turns -/

theorem turns?_succ {count : Nat} (turned : exploration.turn? automaton word = some next) :
    turns? automaton word (count + 1) exploration = turns? automaton word count next := by
  rw [turns?, turned]
  rfl

/-- What is still to be visited, in order. -/
def remaining (automaton : Automaton) (word : Word) (exploration : Exploration) : List Visit :=
  exploration.stack.flatMap (automaton.descent word)

theorem head?_remaining :
    (exploration.remaining automaton word).head? = exploration.stack.head? := by
  cases waiting : exploration.stack with
  | nil => rw [remaining, waiting, List.flatMap_nil]
  | cons visit rest =>
      rw [remaining, waiting, List.flatMap_cons, Automaton.descent_eq]
      rfl

theorem remaining_eq_cons (waiting : exploration.stack = visit :: rest)
    (replaced : next.stack = automaton.nextVisits word visit ++ rest) :
    exploration.remaining automaton word = visit :: next.remaining automaton word := by
  rw [remaining, waiting, List.flatMap_cons, Automaton.descent_eq, remaining, replaced,
    List.flatMap_append]
  rfl

/-- The loop ends. It has visited what was to be visited, up to the first goal, and has
found out whether there is one. The induction is on the visits that remain. -/
theorem exists_turns?_eq (running : exploration.answer? = none)
    (within : exploration.Within word) :
    ∃ count final, turns? automaton word count exploration = some final ∧
      final.answer? = some ((exploration.remaining automaton word).any (automaton.isGoal word)) ∧
      final.visited = exploration.visited ++
        (exploration.remaining automaton word).take
          ((exploration.remaining automaton word).findIdx (automaton.isGoal word) + 1) := by
  have sameHead := @head?_remaining automaton word exploration
  induction visits : exploration.remaining automaton word generalizing exploration with
  | nil =>
      rw [visits] at sameHead
      have turned : exploration.turn? automaton word = some _ :=
        turn?_of_stack_eq_nil running (List.head?_eq_none_iff.mp sameHead.symm)
      exact ⟨1, _, turns?_succ turned, rfl, (List.append_nil _).symm⟩
  | cons visit later inductionHypothesis =>
      rw [visits] at sameHead
      obtain ⟨rest, waiting⟩ := List.head?_eq_some_iff.mp sameHead.symm
      cases reached : automaton.isGoal word visit with
      | true =>
          obtain ⟨last, turned, answered, visited⟩ :=
            exists_turn?_eq_of_isGoal running waiting reached
          refine ⟨1, last, turns?_succ turned, ?_, ?_⟩
          · rw [answered, List.any_cons, reached, Bool.true_or]
          · rw [visited, List.findIdx_cons, reached]
            rfl
      | false =>
          have inside : visit.position ≤ word.length :=
            within visit (waiting ▸ List.mem_cons_self)
          obtain ⟨next, turned, goesOn, visited, replaced⟩ :=
            exists_turn?_eq_of_not_isGoal running waiting inside reached
          have fewer : next.remaining automaton word = later := by
            rw [remaining_eq_cons waiting replaced] at visits
            exact (List.cons.inj visits).2
          obtain ⟨count, final, run, answered, seen⟩ :=
            inductionHypothesis goesOn (within.replaced waiting replaced) head?_remaining fewer
          refine ⟨count + 1, final, (turns?_succ turned).trans run, ?_, ?_⟩
          · rw [answered, List.any_cons, reached, Bool.false_or]
          · rw [seen, visited, List.findIdx_cons, reached, List.append_assoc]
            rfl

/-! ## The whole search -/

theorem stack_start (automaton : Automaton) (first : Nat) :
    (start automaton first).stack =
      (automaton.image automaton.initial first).toList.map fun state => Visit.mk state 1 := by
  simp [stack, start, push]

theorem within_start (automaton : Automaton) (first : Nat) (rest : Word) :
    (start automaton first).Within (first :: rest) := by
  intro visit listed
  rw [stack_start] at listed
  obtain ⟨state, _, rfl⟩ := List.mem_map.mp listed
  exact Nat.succ_le_succ (Nat.zero_le rest.length)

theorem remaining_start (automaton : Automaton) (first : Nat) (rest : Word) :
    (start automaton first).remaining automaton (first :: rest) =
      automaton.descents first rest := by
  rw [remaining, stack_start, List.flatMap_map]
  rfl

/-- The loop ends for every word that is not empty. Until then it has taken from the stack
the descents for this word, in order and each on its own, up to the first goal. Its answer is
whether it has met a goal, which is whether the word is accepted. -/
theorem exists_turns?_start_eq (automaton : Automaton) (first : Nat) (rest : Word) :
    ∃ count final,
      turns? automaton (first :: rest) count (start automaton first) = some final ∧
      final.turn? automaton (first :: rest) = none ∧
      final.visited = (automaton.descents first rest).take
        ((automaton.descents first rest).findIdx (automaton.isGoal (first :: rest)) + 1) ∧
      final.answer? = some (automaton.accepts (first :: rest)) ∧
      (automaton.accepts (first :: rest) = true ↔
        ∃ visit ∈ automaton.descents first rest,
          visit.position = (first :: rest).length ∧ visit.state ∈ automaton.accepting) := by
  obtain ⟨count, final, run, answered, visited⟩ :=
    exists_turns?_eq rfl (within_start automaton first rest)
  rw [remaining_start] at answered visited
  refine ⟨count, final, run, turn?_of_answered answered, visited, ?_, ?_⟩
  · rw [answered, Automaton.any_isGoal_descents]
  · simp only [← Automaton.any_isGoal_descents, List.any_eq_true, Automaton.isGoal_iff]

end Exploration

end Acceptors
