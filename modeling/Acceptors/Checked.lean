import Acceptors.Attempt
import Acceptors.Capacity
import Acceptors.Minimization

/-!
Contract: the minimizations with every check made on the way.

Owns: what can be found wrong, the table of successors, the refinement loop, the merging of
states and both minimizations in a form that asks for room, looks up every index and tests
every condition before it relies on it.
Does not own: the minimizations without the checks, where the conditions are properties
of the types or of the definitions.

Nothing here assumes that a partition is consistent, that an automaton is deterministic, that
members of a block agree or that a table fits. Whatever relies on such a fact stops with a
breach where the fact does not hold. Room is asked for wherever the length of a list is known
beforehand. Blocks and the list of blocks grow item by item; they never have more items than
there are states, for which the table of successors has had room.
-/

namespace Acceptors

/-- A condition that was relied on and does not hold. -/
inductive Breach where
  | capacity (width length : Nat)
  | partition (fault : Partition.Fault)
  | emptyBlock (block : Nat)
  | severalTargets (departure : Departure)
  | conflictingTargets (departure : Departure)
  | malformed (violation : Violation)
deriving DecidableEq, Repr

abbrev Checked := Except Breach

namespace Checked

/-- The value that must be there. -/
def demand {Value : Type} (breach : Breach) : Option Value → Checked Value
  | some value => .ok value
  | none => .error breach

theorem demand_eq_ok_iff {Value : Type} {breach : Breach} {found : Option Value} {value : Value} :
    demand breach found = .ok value ↔ found = some value := by
  cases found <;> simp [demand]

/-- The value that must have been computed. -/
def expect {Error Value : Type} (breach : Error → Breach) : Except Error Value → Checked Value
  | .ok value => .ok value
  | .error error => .error (breach error)

theorem expect_eq_ok_iff {Error Value : Type} {breach : Error → Breach}
    {computed : Except Error Value} {value : Value} :
    expect breach computed = .ok value ↔ computed = .ok value := by
  cases computed <;> simp [expect]

/-- Room for items of a width that are counted before the first one is there. -/
def reserve (width length : Nat) : Checked Unit :=
  if length ≤ capacity width then .ok () else .error (.capacity width length)

theorem reserve_eq_ok {width length : Nat} (fits : length ≤ capacity width) :
    reserve width length = .ok () := if_pos fits

theorem reserve_eq_error {width length : Nat} (exceeds : capacity width < length) :
    reserve width length = .error (.capacity width length) := if_neg (Nat.not_le.mpr exceeds)

section

variable {size : Nat} {Signature : Type} [DecidableEq Signature]

/-! ## Refinement -/

def blockOf (partition : Partition size) (state : Nat) : Checked Nat :=
  demand (.partition (.stateOutOfRange state)) (partition.blockOf? state)

/-- The members with the reference signature and the members with another one. -/
def separate (signature : Nat → Checked Signature) (reference : Signature) :
    List Nat → Checked (List Nat × List Nat)
  | [] => .ok ([], [])
  | state :: rest => do
      let found ← signature state
      let (same, different) ← separate signature reference rest
      if found = reference then .ok (state :: same, different)
      else .ok (same, state :: different)

/-- A partition in the course of a pass, and whether the pass has divided a block. -/
structure Sweep (size : Nat) where
  partition : Partition size
  changed : Bool

/-- Examines one block and divides it if its members do not look alike. -/
def examine (signature : Partition size → Nat → Checked Signature) (sweep : Sweep size)
    (block : Nat) : Checked (Sweep size) := do
  let members ← demand (.partition (.noSuchBlock block)) (sweep.partition.block? block)
  let first ← demand (.emptyBlock block) members.head?
  let reference ← signature sweep.partition first
  let (same, different) ← separate (signature sweep.partition) reference members
  if different.isEmpty then .ok sweep
  else do
    let divided ← expect .partition (sweep.partition.split block same different)
    .ok ⟨divided, true⟩

/-- Examines every block that exists now. -/
def pass (signature : Partition size → Nat → Checked Signature) (partition : Partition size) :
    Checked (Sweep size) :=
  (List.range partition.count).foldlM (examine signature) ⟨partition, false⟩

/-! Each division adds a block and keeps the number of members, so the passes end. -/

theorem counts_of_split {partition divided : Partition size} {block : Nat} {keep off : List Nat}
    (split : partition.split block keep off = .ok divided) :
    divided.memberCount = partition.memberCount ∧ divided.count = partition.count + 1 := by
  unfold Partition.split at split
  split at split
  · split at split
    · cases split
    · rename_i members found
      split at split
      · cases split
      · rename_i lengths
        split at split
        · cases split
        · cases split
          exact ⟨Partition.memberCount_divide _ _ _ _ _ _ _ found (Decidable.not_not.mp lengths),
            Partition.count_divide _ _ _ _ _ _⟩
  · cases split

/-- What a step of a pass keeps: members stay, no block is lost, and a pass that has divided
a block has one more. -/
private def Tallies (start : Partition size) (sweep : Sweep size) : Prop :=
  sweep.partition.memberCount = start.memberCount ∧ start.count ≤ sweep.partition.count ∧
    (sweep.changed = true → start.count < sweep.partition.count)

private theorem tallies_examine {signature : Partition size → Nat → Checked Signature}
    {start : Partition size} {sweep later : Sweep size} {block : Nat}
    (tallies : Tallies start sweep) (examined : examine signature sweep block = .ok later) :
    Tallies start later := by
  obtain ⟨members, _, examined⟩ := bind_eq_ok_iff.mp examined
  obtain ⟨first, _, examined⟩ := bind_eq_ok_iff.mp examined
  obtain ⟨reference, _, examined⟩ := bind_eq_ok_iff.mp examined
  obtain ⟨⟨same, different⟩, _, examined⟩ := bind_eq_ok_iff.mp examined
  dsimp only at examined
  split at examined
  · cases examined
    exact tallies
  · obtain ⟨divided, expected, examined⟩ := bind_eq_ok_iff.mp examined
    cases examined
    obtain ⟨memberCount_eq, count_eq⟩ := counts_of_split (expect_eq_ok_iff.mp expected)
    obtain ⟨members_eq, count_le, _⟩ := tallies
    refine ⟨memberCount_eq.trans members_eq, ?_, fun _ => ?_⟩
    · show start.count ≤ divided.count
      omega
    · show start.count < divided.count
      omega

/-- A pass that divides a block leaves less room for further divisions. -/
theorem slack_lt_of_pass {signature : Partition size → Nat → Checked Signature}
    {partition : Partition size} {sweep : Sweep size}
    (passed : pass signature partition = .ok sweep) (changed : sweep.changed = true) :
    sweep.partition.slack < partition.slack := by
  have start : Tallies partition ⟨partition, false⟩ := ⟨rfl, Nat.le_refl _, nofun⟩
  obtain ⟨members_eq, _, count_lt⟩ :=
    property_of_foldlM (fun _ _ _ tallies examined => tallies_examine tallies examined) start passed
  have more := count_lt changed
  have bound := sweep.partition.count_le_memberCount
  simp only [Partition.slack]
  omega

/-- Repeats passes until one divides nothing. -/
def refine (signature : Partition size → Nat → Checked Signature) (partition : Partition size) :
    Checked (Partition size) :=
  match _ : pass signature partition with
  | .error breach => .error breach
  | .ok sweep =>
      if sweep.changed then refine signature sweep.partition
      else .ok sweep.partition
termination_by partition.slack
decreasing_by
  rename_i _ passed changed
  exact slack_lt_of_pass passed changed

theorem refine_eq (signature : Partition size → Nat → Checked Signature)
    (partition : Partition size) :
    refine signature partition = (pass signature partition >>= fun sweep =>
      if sweep.changed then Checked.refine signature sweep.partition else .ok sweep.partition) := by
  rw [refine]
  split
  · rename_i breach failed
    rw [failed, error_bind]
  · rename_i sweep passed
    rw [passed, ok_bind]

end

/-! ## Partitions of states -/

variable {size : Nat}

/-- The row of a state, with room for all symbols before the first one is looked up. -/
def successorRow (automaton : Automaton) (state : Nat) : Checked (List (Option Nat)) := do
  reserve optionWidth automaton.alphabetSize
  .ok (automaton.row state)

/-- The rows of all states, with room for all of them before the first one is filled. -/
def successorTable (automaton : Automaton) : Checked (Array (List (Option Nat))) := do
  reserve listWidth automaton.size
  let rows ← automaton.states.mapM (successorRow automaton)
  .ok rows.toArray

/-- The part of a row that a comparison looks at. -/
def view (comparison : Comparison) (partition : Partition size) (row : List (Option Nat)) :
    Checked (List (Option Nat)) :=
  match comparison with
  | .successors => .ok row
  | .classes => do
      reserve optionWidth row.length
      row.mapM fun successor =>
        match successor with
        | none => .ok none
        | some state => (blockOf partition state).map some

def signature (rows : Array (List (Option Nat))) (comparison : Comparison)
    (partition : Partition size) (state : Nat) : Checked (List (Option Nat)) := do
  let row ← demand (.partition (.stateOutOfRange state)) rows[state]?
  view comparison partition row

def acceptancePartition (automaton : Automaton) : Checked (Partition automaton.size) := do
  reserve numberWidth automaton.size
  expect .partition <| Partition.ofBlocks automaton.size [
    automaton.states.filter automaton.isAccepting,
    automaton.states.filter fun state => !automaton.isAccepting state]

/-- The refinement of the acceptance partition by what the comparison sees. Automata that are
not deterministic are refused before the table is made, which is no breach. -/
def partitionBy (automaton : Automaton) (comparison : Comparison) :
    Checked (Except Ambiguity (Partition automaton.size)) :=
  match automaton.checkDeterministic with
  | .error ambiguity => .ok (.error ambiguity)
  | .ok () => do
      let rows ← successorTable automaton
      let acceptance ← acceptancePartition automaton
      let refined ← refine (signature rows comparison) acceptance
      .ok (.ok refined)

/-! ## Merged states -/

/-- Adds the transition between the blocks of a departure and of its only target. Another
departure may have led there before, but not elsewhere. -/
def addTransition (partition : Partition size) (transitions : Transitions)
    (entry : Departure × StateSet) : Checked Transitions := do
  let target ← demand (.severalTargets entry.1) entry.2.single?
  let source ← blockOf partition entry.1.source
  let targets := StateSet.singleton (← blockOf partition target)
  if transitions[(⟨source, entry.1.symbol⟩ : Departure)]?.all (· = targets) then
    .ok (transitions.insert ⟨source, entry.1.symbol⟩ targets)
  else .error (.conflictingTargets entry.1)

/-- The automaton whose states are the blocks of a partition. -/
def quotient (automaton : Automaton) (partition : Partition automaton.size) :
    Checked Automaton := do
  let initial ← automaton.initial.toList.mapM (blockOf partition)
  let accepting ← automaton.accepting.toList.mapM (blockOf partition)
  let transitions ← automaton.entries.foldlM (addTransition partition) ∅
  expect .malformed (Draft.build ⟨partition.count, automaton.alphabetSize, .ofList initial,
    .ofList accepting, transitions⟩)

/-- The automaton of merged states. -/
def minimizeBy (automaton : Automaton) (comparison : Comparison) :
    Checked (Except Ambiguity Automaton) := do
  match ← partitionBy automaton comparison with
  | .error ambiguity => .ok (.error ambiguity)
  | .ok partition =>
      let merged ← quotient automaton partition
      .ok (.ok merged)

end Checked

end Acceptors
