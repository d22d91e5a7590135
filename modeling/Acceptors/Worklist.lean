import Acceptors.SubsetConstruction

/-!
Contract: the subset construction in one pass over a queue.

Owns: a two-way table whose insertions displace what they collide with, the tables that
grow together with the queue, and one turn of the loop.
Does not own: the construction in two passes, where the subsets are found first and the
edges are listed afterwards.

Nothing in these types keeps a number from being used twice, a subset from losing its
number or a queued number from having no subset. That none of it happens is a property
of the loop.
-/

namespace Acceptors

/-! ## Two-way tables -/

/-- Pairs that can be looked up from both sides. -/
structure TwoWay (Left Right : Type) [Ord Left] [Ord Right] where
  rights : Std.ExtTreeMap Left Right
  lefts : Std.ExtTreeMap Right Left

namespace TwoWay

variable {Left Right : Type} [Ord Left] [Std.TransOrd Left] [Ord Right] [Std.TransOrd Right]

def empty : TwoWay Left Right := ⟨∅, ∅⟩

def size (table : TwoWay Left Right) : Nat := table.rights.size

def right? (table : TwoWay Left Right) (left : Left) : Option Right := table.rights[left]?

def left? (table : TwoWay Left Right) (right : Right) : Option Left := table.lefts[right]?

/-- Drops the pair with the given left side. -/
def dropLeft (table : TwoWay Left Right) (left : Left) : TwoWay Left Right :=
  match table.right? left with
  | some right => ⟨table.rights.erase left, table.lefts.erase right⟩
  | none => table

/-- Drops the pair with the given right side. -/
def dropRight (table : TwoWay Left Right) (right : Right) : TwoWay Left Right :=
  match table.left? right with
  | some left => ⟨table.rights.erase left, table.lefts.erase right⟩
  | none => table

/-- Adds a pair in place of the pairs that share a side with it. -/
def insert (table : TwoWay Left Right) (left : Left) (right : Right) : TwoWay Left Right :=
  let cleared := (table.dropLeft left).dropRight right
  ⟨cleared.rights.insert left right, cleared.lefts.insert right left⟩

end TwoWay

/-! ## The loop -/

/-- What the loop knows: the numbered subsets, the numbers of the accepting ones, the
transitions of the expanded ones and the numbers that wait to be expanded. -/
structure Worklist where
  subsets : TwoWay Nat StateSet
  accepting : StateSet
  transitions : Transitions
  queue : List Nat

namespace Worklist

/-- Gives a number to a subset, notes whether the subset accepts and queues the number. -/
def enqueue (worklist : Worklist) (automaton : Automaton) (number : Nat) (subset : StateSet) :
    Worklist :=
  { worklist with
    subsets := worklist.subsets.insert number subset
    accepting :=
      if subset.intersects automaton.accepting then worklist.accepting.insert number
      else worklist.accepting
    queue := worklist.queue ++ [number] }

def start (automaton : Automaton) : Worklist :=
  enqueue ⟨.empty, ∅, ∅, []⟩ automaton 0 automaton.initial

def addTransition (worklist : Worklist) (source symbol target : Nat) : Worklist :=
  { worklist with
    transitions := worklist.transitions.insert ⟨source, symbol⟩ (StateSet.singleton target) }

/-- Follows one symbol from a subset, unless nothing is reached. -/
def visit (worklist : Worklist) (automaton : Automaton) (source : Nat) (subset : StateSet)
    (symbol : Nat) : Worklist :=
  let image := automaton.image subset symbol
  if image.isEmpty then worklist
  else
    match worklist.subsets.left? image with
    | some target => worklist.addTransition source symbol target
    | none =>
        let target := worklist.subsets.size
        (worklist.enqueue automaton target image).addTransition source symbol target

/-- Follows every symbol from a subset, symbols ascending. -/
def expand (worklist : Worklist) (automaton : Automaton) (source : Nat) (subset : StateSet) :
    Worklist :=
  automaton.symbols.foldl (fun current symbol => current.visit automaton source subset symbol)
    worklist

/-- One turn of the loop. There is none if the queue is empty, and none if the number in front
has no subset. -/
def turn? (automaton : Automaton) (worklist : Worklist) : Option Worklist :=
  match worklist.queue with
  | [] => none
  | source :: rest =>
      (worklist.subsets.right? source).map fun subset =>
        expand { worklist with queue := rest } automaton source subset

/-- Several turns of the loop. -/
def turns? (automaton : Automaton) : Nat → Worklist → Option Worklist
  | 0, worklist => some worklist
  | count + 1, worklist => (worklist.turn? automaton).bind (turns? automaton count)

/-- The draft that the tables describe. -/
def draft (worklist : Worklist) (automaton : Automaton) : Draft :=
  ⟨worklist.subsets.size, automaton.alphabetSize, StateSet.singleton 0, worklist.accepting,
    worklist.transitions⟩

end Worklist

end Acceptors
