import Acceptors.SubsetConstruction
import Acceptors.Text.Grid
import Acceptors.Text.Lines

/-!
Contract: automata shown to a reader.

Owns: the transition table of an automaton, the description made of it, and the
description of a subset construction.
Does not own: the frame around the table.

The table has one row for each state and one column for each symbol. An initial
state has an arrow in front of its number and an accepting state a star behind it.
-/

namespace Acceptors

namespace Automaton

def stateLabel (automaton : Automaton) (state : Nat) : String :=
  (if automaton.initial.contains state then "→" else "") ++ toString state ++
    (if automaton.isAccepting state then "*" else "")

/-- The targets of a departure: a hyphen if there are none, a number for a single one. -/
def targetCell (automaton : Automaton) (source symbol : Nat) : String :=
  match automaton.successors? source symbol with
  | none => "-"
  | some targets =>
      match targets.single? with
      | some target => toString target
      | none => targets.render

def tableHeader (automaton : Automaton) : Text.Grid.Row :=
  "State" :: automaton.symbols.map toString

def tableRow (automaton : Automaton) (state : Nat) : Text.Grid.Row :=
  automaton.stateLabel state :: automaton.symbols.map (automaton.targetCell state)

def table (automaton : Automaton) : String :=
  Text.Grid.render automaton.tableHeader (automaton.states.map automaton.tableRow)

def describe (automaton : Automaton) : String :=
  s!"Automaton with initial states {automaton.initial.render}\n" ++ automaton.table

end Automaton

/-- Every state with the set that it stands for, and the transition table. -/
def SubsetConstruction.describe (construction : SubsetConstruction) : String :=
  "Subset construction\n" ++
    Text.unlines (construction.subsets.entries.map fun entry =>
      s!"{entry.1} = {entry.2.render}") ++ construction.dfa.table

end Acceptors
