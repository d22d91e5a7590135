import Acceptors.Encoding
import Acceptors.Minimization
import Acceptors.Simulation
import Acceptors.TransitionTable

/-!
Contract: what the library reports about its work.

Owns: the events, their levels and their wording, and the events that belong to
the result of each operation, in order.
Does not own: where events are sent. An operation returns its result, and its
events are a function of that result.
-/

namespace Acceptors

/-- How much attention an event asks for. -/
inductive Level where
  | trace
  | debug
  | info
  | warn
deriving DecidableEq, Repr

namespace Level

def name : Level → String
  | trace => "TRACE"
  | debug => "DEBUG"
  | info => "INFO"
  | warn => "WARN"

def rank : Level → Nat
  | trace => 0
  | debug => 1
  | info => 2
  | warn => 3

end Level

inductive Event where
  | constructed (size alphabetSize transitionCount : Nat)
  | headerRead (header : Encoding.Header)
  | automatonRead (size transitionCount : Nat)
  | initialSubset (subset : StateSet)
  | subsetDiscovered (subset : StateSet) (number : Nat)
  | subsetsComplete (sourceSize subsetCount : Nat)
  | blockDivided (division : Division (List (Option Nat)))
  | partitionStable (passes blockCount : Nat)
  | statesMerged (stateCount classCount : Nat)
  | wordSimulated (strategy : Strategy) (wordLength : Nat) (accepted : Bool)
  | automatonDrawn (automaton : Automaton)
deriving DecidableEq

namespace Event

def level : Event → Level
  | automatonRead .. | subsetsComplete .. | partitionStable .. | statesMerged .. => .debug
  | _ => .trace

def renderSuccessor : Option Nat → String
  | some successor => s!"Some({successor})"
  | none => "None"

def renderSignature (signature : List (Option Nat)) : String :=
  Text.listing "[" "]" (signature.map renderSuccessor)

def message : Event → String
  | constructed size alphabetSize transitionCount =>
      s!"constructed automaton with {size} states, {alphabetSize} symbols and " ++
        s!"{transitionCount} transitions"
  | headerRead header =>
      let initial := Text.bracketed header.initial
      let accepting := Text.bracketed header.accepting
      s!"read header: {header.size} states, {header.alphabetSize} symbols, " ++
        s!"initial {initial}, accepting {accepting}"
  | automatonRead size transitionCount =>
      s!"read automaton with {size} states and {transitionCount} transitions"
  | initialSubset subset => s!"initial subset {subset.render} gets id 0"
  | subsetDiscovered subset number => s!"discovered subset {subset.render} with id {number}"
  | subsetsComplete sourceSize subsetCount =>
      s!"subset construction turned {sourceSize} states into {subsetCount} states"
  | blockDivided division =>
      let moved := Text.bracketed division.moved
      let signature := renderSignature division.signature
      s!"splitting {moved} off block {division.block} with signature {signature}"
  | partitionStable passes blockCount =>
      s!"partition refinement stabilized after {passes} passes with {blockCount} blocks"
  | statesMerged stateCount classCount =>
      s!"merged {stateCount} states into {classCount} classes"
  | wordSimulated strategy wordLength accepted =>
      s!"{strategy.name} simulation on word of length {wordLength} gives {accepted}"
  | automatonDrawn automaton => "drew random automaton\n" ++ automaton.describe

def render (event : Event) : String := event.level.name ++ " " ++ event.message

end Event

/-! ## The events of each operation -/

namespace Automaton

def constructionEvents (automaton : Automaton) : List Event :=
  [.constructed automaton.size automaton.alphabetSize automaton.transitionCount]

end Automaton

def Draft.buildEvents (draft : Draft) : List Event :=
  match draft.build with
  | .ok automaton => automaton.constructionEvents
  | .error _ => []

namespace Encoding

/-- Lines have been read as far as they could be. -/
def readEvents (lines : List String) : List Event :=
  match readHeader lines with
  | .error _ => []
  | .ok (header, rest) =>
      .headerRead header ::
        match readBody header rest with
        | .error _ => []
        | .ok automaton =>
            automaton.constructionEvents ++
              [.automatonRead automaton.size automaton.transitionCount]

end Encoding

def SubsetConstruction.events (construction : SubsetConstruction) (sourceSize : Nat) :
    List Event :=
  construction.subsets.entries.map (fun entry =>
    if entry.1 = 0 then .initialSubset entry.2 else .subsetDiscovered entry.2 entry.1) ++
  .subsetsComplete sourceSize construction.subsets.size :: construction.dfa.constructionEvents

def Refinement.events {size : Nat} (refinement : Refinement size (List (Option Nat))) :
    List Event :=
  refinement.divisions.map .blockDivided ++
    [.partitionStable refinement.passes refinement.partition.count]

namespace Automaton

def determinizationEvents (automaton : Automaton) : List Event :=
  automaton.subsetConstruction.events automaton.size

/-- A partition has been computed, unless the automaton was refused. -/
def partitionEvents (automaton : Automaton) (comparison : Comparison) : List Event :=
  match automaton.refinement comparison with
  | .error _ => []
  | .ok refinement => refinement.events

/-- States have been merged, unless the automaton was refused. -/
def minimizationEvents (automaton : Automaton) (comparison : Comparison) : List Event :=
  match automaton.refinement comparison with
  | .error _ => []
  | .ok refinement =>
      refinement.events ++
        .statesMerged automaton.size refinement.partition.count ::
          (automaton.quotient refinement.partition).constructionEvents

def drawnEvents (automaton : Automaton) : List Event :=
  automaton.constructionEvents ++ [.automatonDrawn automaton]

def simulationEvents (automaton : Automaton) (strategy : Strategy) (word : Word) : List Event :=
  [.wordSimulated strategy word.length (automaton.acceptsWith strategy word)]

end Automaton

end Acceptors
