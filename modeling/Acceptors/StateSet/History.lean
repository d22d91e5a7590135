import Mathlib.Data.Fin.Tuple.Basic
import Mathlib.Data.Set.Insert
import Acceptors.StateSet

/-!
Contract: every way in which callers build sets of states.

Owns: histories of operations on numbered sets, the sets that a history leaves,
what was put into each of them, and the law that these are its members.
Does not own: the answers of a set to queries, or its use as a key.

A history only names sets that exist at that point, so it never fails.
-/

namespace Acceptors.StateSet

/-- Operations, the last one outermost, that leave `count` sets numbered from zero. -/
inductive History : Nat → Type where
  | start : History 0
  | new {count : Nat} (earlier : History count) : History (count + 1)
  | singleton {count : Nat} (earlier : History count) (state : Nat) : History (count + 1)
  | collect {count : Nat} (earlier : History count) (states : List Nat) : History (count + 1)
  | copy {count : Nat} (earlier : History count) (source : Fin count) : History (count + 1)
  | insert {count : Nat} (earlier : History count) (place : Fin count) (state : Nat) :
      History count
  | extend {count : Nat} (earlier : History count) (place : Fin count) (states : List Nat) :
      History count
  | union {count : Nat} (earlier : History count) (place source : Fin count) : History count

namespace History

/-- The sets that a history leaves. -/
def sets {count : Nat} : History count → Fin count → StateSet
  | start => Fin.elim0
  | new earlier => Fin.snoc earlier.sets ∅
  | singleton earlier state => Fin.snoc earlier.sets (.singleton state)
  | collect earlier states => Fin.snoc earlier.sets (.ofList states)
  | copy earlier source => Fin.snoc earlier.sets (earlier.sets source)
  | insert earlier place state =>
      Function.update earlier.sets place ((earlier.sets place).containsThenInsert state).2
  | extend earlier place states =>
      Function.update earlier.sets place ((earlier.sets place).insertMany states)
  | union earlier place source =>
      Function.update earlier.sets place (earlier.sets place ∪ earlier.sets source)

/-- The states that a history puts into each set. -/
def put {count : Nat} : History count → Fin count → Set Nat
  | start => Fin.elim0
  | new earlier => Fin.snoc earlier.put ∅
  | singleton earlier state => Fin.snoc earlier.put {state}
  | collect earlier states => Fin.snoc earlier.put {state | state ∈ states}
  | copy earlier source => Fin.snoc earlier.put (earlier.put source)
  | insert earlier place state =>
      Function.update earlier.put place (Insert.insert state (earlier.put place))
  | extend earlier place states =>
      Function.update earlier.put place ({state | state ∈ states} ∪ earlier.put place)
  | union earlier place source =>
      Function.update earlier.put place (earlier.put place ∪ earlier.put source)

end History

/-- Each numbered set has exactly the members recorded for it. -/
def Holds {count : Nat} (sets : Fin count → StateSet) (put : Fin count → Set Nat) : Prop :=
  ∀ place state, state ∈ sets place ↔ state ∈ put place

section Steps

variable {count : Nat} {sets : Fin count → StateSet} {put : Fin count → Set Nat}
variable {set : StateSet} {members : Set Nat}

/-- A further set with known members. -/
theorem Holds.snoc (holds : Holds sets put) (known : ∀ state, state ∈ set ↔ state ∈ members) :
    Holds (Fin.snoc sets set : Fin (count + 1) → StateSet)
      (Fin.snoc put members : Fin (count + 1) → Set Nat) := by
  intro place state
  cases place using Fin.lastCases with
  | last =>
      rw [Fin.snoc_last, Fin.snoc_last]
      exact known state
  | cast earlier =>
      rw [Fin.snoc_castSucc, Fin.snoc_castSucc]
      exact holds earlier state

/-- A set replaced by one with known members, the others as they were. -/
theorem Holds.update (holds : Holds sets put) (place : Fin count)
    (known : ∀ state, state ∈ set ↔ state ∈ members) :
    Holds (Function.update sets place set) (Function.update put place members) := by
  intro other state
  by_cases same : other = place
  · subst same
    rw [Function.update_self, Function.update_self]
    exact known state
  · rw [Function.update_of_ne same, Function.update_of_ne same]
    exact holds other state

end Steps

/-- Whatever the history, the members of each set are the states put into it. -/
theorem History.holds {count : Nat} (history : History count) :
    Holds history.sets history.put := by
  induction history with
  | start =>
      intro place
      exact place.elim0
  | new earlier inductionHypothesis =>
      exact inductionHypothesis.snoc fun state => by simp
  | singleton earlier state inductionHypothesis =>
      exact inductionHypothesis.snoc fun other => by simp
  | collect earlier states inductionHypothesis =>
      exact inductionHypothesis.snoc fun state => by simp
  | copy earlier source inductionHypothesis =>
      exact inductionHypothesis.snoc (inductionHypothesis source)
  | insert earlier place state inductionHypothesis =>
      refine inductionHypothesis.update place fun other => ?_
      simp [containsThenInsert, inductionHypothesis place other]
  | extend earlier place states inductionHypothesis =>
      refine inductionHypothesis.update place fun state => ?_
      simp [inductionHypothesis place state]
  | union earlier place source inductionHypothesis =>
      refine inductionHypothesis.update place fun state => ?_
      simp [inductionHypothesis place state, inductionHypothesis source state]

end Acceptors.StateSet
