import Acceptors.Capacity
import Acceptors.Random.Generator
import Acceptors.Run

/-!
Contract: random automata and words.

Owns: the order in which the parts of an automaton or a word are drawn, and the
requests that cannot be met.
Does not own: the generator.
-/

namespace Acceptors.Random

/-- Why nothing can be drawn: a number is asked for out of an empty range, a word has no room
for its symbols, or there are no states or no symbols. -/
inductive DrawError where
  | emptyRange
  | tooLong (length : Nat)
  | invalid (violation : Violation)
deriving DecidableEq, Repr

/-- What has been drawn for one state: its targets for each symbol in turn. -/
structure DrawnState where
  isInitial : Bool
  isAccepting : Bool
  targets : List (List Nat)
deriving DecidableEq, Repr

/-- The draft that drawn states describe, in the order of their indices. -/
def draftOf (alphabetSize : Nat) (drawn : List DrawnState) : Draft :=
  let marked (mark : DrawnState → Bool) : StateSet :=
    .ofList ((drawn.zipIdx.filter fun entry => mark entry.1).map Prod.snd)
  .ofEdges drawn.length alphabetSize (marked DrawnState.isInitial) (marked DrawnState.isAccepting)
    (drawn.zipIdx.flatMap fun (state, source) =>
      state.targets.zipIdx.flatMap fun (targets, symbol) =>
        targets.map fun target => ⟨source, symbol, target⟩)

def build (alphabetSize : Nat) (drawn : List DrawnState) : Except DrawError Automaton :=
  (draftOf alphabetSize drawn).build.mapError .invalid

/-- State zero is initial and any other one by chance; a coin decides whether a state is
accepting; every target is present by chance. -/
def drawState (size alphabetSize : Nat) (density : Float) (state : Nat) : Draw DrawnState := do
  let isInitial ← if state = 0 then pure true else chance density
  let isAccepting ← coin
  let targets ← (List.range alphabetSize).mapM fun _ =>
    (List.range size).filterM fun _ => chance density
  return ⟨isInitial, isAccepting, targets⟩

/-- An automaton in which every step is present with the given density. -/
def automaton (size alphabetSize : Nat) (density : Float) :
    Draw (Except DrawError Automaton) := do
  return build alphabetSize (← (List.range size).mapM (drawState size alphabetSize density))

/-- Only state zero is initial; a coin decides whether a state is accepting; every symbol
has one target. -/
def drawCompleteState (size alphabetSize : Nat) (state : Nat) : Draw DrawnState := do
  let isAccepting ← coin
  let targets ← (List.range alphabetSize).mapM fun _ => return [← below size]
  return ⟨state = 0, isAccepting, targets⟩

/-- A deterministic automaton with a transition for every state and symbol. -/
def completeAutomaton (size alphabetSize : Nat) : Draw (Except DrawError Automaton) := do
  return build alphabetSize (← (List.range size).mapM (drawCompleteState size alphabetSize))

/-- A number from an inclusive range. The full range of a raw draw needs no scaling. -/
def between (least greatest : Nat) : Draw (Except DrawError Nat) := do
  if greatest < least then return .error .emptyRange
  else if greatest - least + 1 = UInt64.size then return .ok (least + (← raw).toNat)
  else return .ok (least + (← below (greatest - least + 1)))

/-- The least number of symbols that no drawn word has. -/
def wordCapacity : Nat := capacity numberWidth + 1

/-- A word whose length is drawn first. Room is made for all symbols before one is drawn. -/
def word (alphabetSize minLength maxLength : Nat) : Draw (Except DrawError Word) := do
  match ← between minLength maxLength with
  | .error error => return .error error
  | .ok length =>
      if wordCapacity ≤ length then return .error (.tooLong length)
      else if length ≠ 0 ∧ alphabetSize = 0 then return .error .emptyRange
      else return .ok (← (List.range length).mapM fun _ => below alphabetSize)

end Acceptors.Random
