import Acceptors.Simulation

/-!
Contract: the branching search as a loop over one stack.

Owns: branches named by positions, the stack of pending branches, one turn of the loop, and
the record of the branches that were taken from the stack.
Does not own: the search on lists of branches, which ends because these lose weight.

A branch names its place in the word by a position and not by what is still to be read.
Nothing in these types orders the stack or keeps a position inside the word, and nothing
ends the loop. What the loop visits, that it ends, and that it answers as
`Automaton.acceptsBranching` does are properties of its turns.
-/

namespace Acceptors

/-- A state and the position of the symbol that is read from it next. -/
structure Visit where
  state : Nat
  position : Nat
deriving DecidableEq, Repr

/-- The state of the loop: the stack, whose top is last, the branches that were taken from
it, in order, and the answer once there is one. -/
structure Exploration where
  pending : Array Visit
  visited : List Visit
  answer? : Option Bool
deriving DecidableEq, Repr

namespace Exploration

/-- Puts one branch for each state on the stack and turns these around, so that the smallest
state ends on top. -/
def push (pending : Array Visit) (states : StateSet) (position : Nat) : Array Visit :=
  pending ++ (states.toList.map fun state => Visit.mk state position).toArray.reverse

/-- The loop before its first turn, on a word that begins with a symbol. -/
def start (automaton : Automaton) (first : Nat) : Exploration :=
  ⟨push #[] (automaton.image automaton.initial first) 1, [], none⟩

/-- Follows a branch that was taken from the stack. At the end of the word it is accepted or
dropped, and before the end it is replaced by the branches behind it. -/
def follow (exploration : Exploration) (automaton : Automaton) (word : Word) (visit : Visit) :
    Exploration :=
  match word[visit.position]? with
  | none =>
      if automaton.isAccepting visit.state then { exploration with answer? := some true }
      else exploration
  | some symbol =>
      match automaton.successors? visit.state symbol with
      | none => exploration
      | some targets =>
          { exploration with pending := push exploration.pending targets (visit.position + 1) }

/-- One turn of the loop. There is none after the answer. -/
def turn? (automaton : Automaton) (word : Word) (exploration : Exploration) :
    Option Exploration :=
  match exploration.answer? with
  | some _ => none
  | none =>
      match exploration.pending.back? with
      | none => some { exploration with answer? := some false }
      | some visit =>
          let popped := { exploration with
            pending := exploration.pending.pop
            visited := exploration.visited ++ [visit] }
          some (popped.follow automaton word visit)

/-- Several turns of the loop. -/
def turns? (automaton : Automaton) (word : Word) : Nat → Exploration → Option Exploration
  | 0, exploration => some exploration
  | count + 1, exploration =>
      (exploration.turn? automaton word).bind (turns? automaton word count)

end Exploration

end Acceptors
