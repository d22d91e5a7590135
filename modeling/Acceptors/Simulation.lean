import Acceptors.Run

/-!
Contract: the two procedures that decide whether a word is accepted.

Owns: the branching search, the frontier simulation, and the choice between them.
Does not own: the meaning of acceptance, which is `Automaton.Accepts`.

The branching search follows every run on its own. It ends because the branches
that replace one branch weigh less than it does: a branch with `k` unread symbols
weighs `(size + 1) ^ k`. Its pending branches are a list, not a call stack.
-/

namespace Acceptors

inductive Strategy where
  | branching
  | frontier
deriving DecidableEq, Repr

def Strategy.name : Strategy → String
  | branching => "Branching"
  | frontier => "Frontier"

/-- A branch of the search: a state and what is still to be read from it. -/
structure Branch where
  state : Nat
  unread : Word
deriving DecidableEq, Repr

/-- One branch for each state of a set, the smallest state first. -/
def StateSet.branches (states : StateSet) (unread : Word) : List Branch :=
  states.toList.map fun state => ⟨state, unread⟩

namespace Automaton

def continuations (automaton : Automaton) (branch : Branch) : List Branch :=
  match branch.unread with
  | [] => []
  | symbol :: rest => (automaton.targets branch.state symbol).branches rest

def succeeds (automaton : Automaton) (branch : Branch) : Bool :=
  branch.unread.isEmpty && automaton.isAccepting branch.state

/-- More than the weight of everything that can continue the branch. -/
def branchWeight (automaton : Automaton) (branch : Branch) : Nat :=
  Nat.pow (automaton.size + 1) branch.unread.length

def pendingWeight (automaton : Automaton) (pending : List Branch) : Nat :=
  pending.foldr (fun branch rest => automaton.branchWeight branch + rest) 0

theorem pendingWeight_append (automaton : Automaton) (left right : List Branch) :
    automaton.pendingWeight (left ++ right) =
      automaton.pendingWeight left + automaton.pendingWeight right := by
  induction left with
  | nil => simp [pendingWeight]
  | cons head tail inductionHypothesis =>
      simp only [pendingWeight, List.cons_append, List.foldr_cons] at *
      omega

private theorem pendingWeight_branches (automaton : Automaton) (states : StateSet)
    (unread : Word) :
    automaton.pendingWeight (states.branches unread) =
      states.size * Nat.pow (automaton.size + 1) unread.length := by
  unfold StateSet.branches StateSet.size
  induction states.toList with
  | nil => simp [pendingWeight]
  | cons head tail inductionHypothesis =>
      rw [List.length_cons, Nat.succ_mul, ← inductionHypothesis, Nat.add_comm]
      rfl

theorem pendingWeight_continuations_lt (automaton : Automaton) (branch : Branch) :
    automaton.pendingWeight (automaton.continuations branch) < automaton.branchWeight branch := by
  have positive (exponent : Nat) : 0 < Nat.pow (automaton.size + 1) exponent :=
    Nat.pow_pos (Nat.succ_pos _)
  obtain ⟨state, unread⟩ := branch
  cases unread with
  | nil => exact positive 0
  | cons symbol rest =>
      change automaton.pendingWeight ((automaton.targets state symbol).branches rest) <
        Nat.pow (automaton.size + 1) rest.length * (automaton.size + 1)
      have few : (automaton.targets state symbol).size ≤ automaton.size :=
        StateSet.size_le_of_forall_lt fun _ belongs => lt_size_of_mem_targets belongs
      rw [pendingWeight_branches, Nat.mul_comm]
      exact Nat.mul_lt_mul_of_pos_left (Nat.lt_succ_of_le few) (positive _)

/-- Follows the first pending branch until one succeeds or none is left. -/
def search (automaton : Automaton) (pending : List Branch) : Bool :=
  match pending with
  | [] => false
  | branch :: others =>
      if automaton.succeeds branch then true
      else automaton.search (automaton.continuations branch ++ others)
termination_by automaton.pendingWeight pending
decreasing_by
  have lighter := automaton.pendingWeight_continuations_lt branch
  rw [pendingWeight_append]
  exact Nat.add_lt_add_right lighter _

/-- The branches that a nonempty word starts with, one for each state that its first
symbol reaches. -/
def firstBranches (automaton : Automaton) (first : Nat) (rest : Word) : List Branch :=
  (automaton.image automaton.initial first).branches rest

/-- Searches for an accepting run, one branch at a time. -/
def acceptsBranching (automaton : Automaton) (word : Word) : Bool :=
  match word with
  | [] => automaton.initial.intersects automaton.accepting
  | first :: rest => automaton.search (automaton.firstBranches first rest)

/-- Follows all runs from a set of states together and stops when none is left. -/
def follow (automaton : Automaton) (frontier : StateSet) (word : Word) : Bool :=
  match word with
  | [] => frontier.intersects automaton.accepting
  | symbol :: rest =>
      if (automaton.image frontier symbol).isEmpty then false
      else automaton.follow (automaton.image frontier symbol) rest

/-- Tracks the set of states that are reached. -/
def acceptsFrontier (automaton : Automaton) (word : Word) : Bool :=
  automaton.follow automaton.initial word

def acceptsWith (automaton : Automaton) (strategy : Strategy) (word : Word) : Bool :=
  match strategy with
  | .branching => automaton.acceptsBranching word
  | .frontier => automaton.acceptsFrontier word

/-- Whether a word is accepted, decided by branching. -/
def accepts (automaton : Automaton) (word : Word) : Bool :=
  automaton.acceptsWith .branching word

end Automaton

end Acceptors
