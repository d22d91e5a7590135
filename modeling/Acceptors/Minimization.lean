import Acceptors.Automaton
import Acceptors.Refinement

/-!
Contract: smaller deterministic automata by merging states.

Owns: the two ways of comparing states, the partitions they lead to, the automaton
of the blocks of a partition, and the two minimizations.
Does not own: the refinement loop, and the room for the table of successors.

Comparing successors merges states with the very same successors. Comparing
classes merges states whose successors lie in the same blocks. A missing
transition counts as a successor of its own in both.

Partitions are read off a table with the successors of every state. The functions on values
here take that table to fit into memory; `Checked` says what becomes of automata for which it
does not.
-/

namespace Acceptors

/-- What is compared of two states that agree on acceptance. -/
inductive Comparison where
  | successors
  | classes
deriving DecidableEq, Repr

namespace Automaton

/-- The successor of a state on every symbol, or nothing where there is no transition. -/
def row (automaton : Automaton) (state : Nat) : List (Option Nat) :=
  automaton.symbols.map (automaton.successor? state)

/-- The part of a row that a comparison looks at. -/
def view {size : Nat} (comparison : Comparison) (partition : Partition size)
    (row : List (Option Nat)) : List (Option Nat) :=
  match comparison with
  | .successors => row
  | .classes => row.map fun successor => successor.map partition.indexOf

def acceptancePartition (automaton : Automaton) : Partition automaton.size :=
  .ofTest automaton.size automaton.isAccepting

def signature (automaton : Automaton) (comparison : Comparison) {size : Nat}
    (partition : Partition size) (state : Nat) : List (Option Nat) :=
  view comparison partition (automaton.row state)

def rows (automaton : Automaton) : Vector (List (Option Nat)) automaton.size :=
  .ofFn fun state => automaton.row state

/-- The row of a state, taken from the table where the table has it. -/
def lookUpRow (automaton : Automaton) (rows : Vector (List (Option Nat)) automaton.size)
    (state : Nat) : List (Option Nat) :=
  if inside : state < automaton.size then rows[state] else automaton.row state

@[simp] theorem lookUpRow_rows (automaton : Automaton) (state : Nat) :
    automaton.lookUpRow automaton.rows state = automaton.row state := by
  simp [lookUpRow, rows]

/-- The refinement of the acceptance partition by what the comparison sees. -/
def refineBy (automaton : Automaton) (comparison : Comparison) :
    Refinement automaton.size (List (Option Nat)) :=
  let rows := automaton.rows
  refine (fun partition state => view comparison partition (automaton.lookUpRow rows state))
    automaton.acceptancePartition

/-- The table of rows only saves time. -/
theorem refineBy_eq (automaton : Automaton) (comparison : Comparison) :
    automaton.refineBy comparison =
      refine (automaton.signature comparison) automaton.acceptancePartition := by
  simp only [refineBy, lookUpRow_rows]
  rfl

/-- The refinement of a deterministic automaton; any other is refused. -/
def refinement (automaton : Automaton) (comparison : Comparison) :
    Except Ambiguity (Refinement automaton.size (List (Option Nat))) :=
  match automaton.checkDeterministic with
  | .error ambiguity => .error ambiguity
  | .ok () => .ok (automaton.refineBy comparison)

def edges (automaton : Automaton) : List Edge :=
  automaton.entries.flatMap fun entry =>
    entry.2.toList.map fun target => ⟨entry.1.source, entry.1.symbol, target⟩

theorem mem_edges_iff {automaton : Automaton} {edge : Edge} :
    edge ∈ automaton.edges ↔ edge.target ∈ automaton.targets edge.source edge.symbol := by
  obtain ⟨source, symbol, target⟩ := edge
  rw [mem_targets_iff]
  constructor
  · intro listed
    obtain ⟨⟨departure, targets⟩, entry, fromEntry⟩ := List.mem_flatMap.mp listed
    obtain ⟨state, belongs, same⟩ := List.mem_map.mp fromEntry
    cases same
    exact ⟨targets, Std.ExtTreeMap.mem_toList_iff_getElem?_eq_some.mp entry, belongs⟩
  · rintro ⟨targets, found, belongs⟩
    exact List.mem_flatMap.mpr ⟨(⟨source, symbol⟩, targets),
      Std.ExtTreeMap.mem_toList_iff_getElem?_eq_some.mpr found,
      List.mem_map.mpr ⟨target, belongs, rfl⟩⟩

def quotientDraft (automaton : Automaton) (partition : Partition automaton.size) : Draft :=
  .ofEdges partition.count automaton.alphabetSize
    (automaton.initial.map partition.indexOf) (automaton.accepting.map partition.indexOf)
    (automaton.edges.map fun edge =>
      ⟨partition.indexOf edge.source, edge.symbol, partition.indexOf edge.target⟩)

theorem valid_quotientDraft (automaton : Automaton) (partition : Partition automaton.size) :
    (automaton.quotientDraft partition).Valid := by
  have inside {state : Nat} (below : state < automaton.size) :
      partition.indexOf state < partition.count := partition.indexOf_lt below
  obtain ⟨first, isInitial⟩ := StateSet.ne_empty_iff.mp automaton.valid.initial_nonempty
  refine Draft.valid_ofEdges (Nat.lt_of_le_of_lt (Nat.zero_le _) (inside automaton.valid.size_pos))
    automaton.valid.alphabetSize_pos
    (StateSet.ne_empty_iff.mpr ⟨partition.indexOf first, ?_⟩) ?_ ?_ ?_
  · exact StateSet.mem_map.mpr ⟨first, isInitial, rfl⟩
  · intro block belongs
    obtain ⟨state, isMember, rfl⟩ := StateSet.mem_map.mp belongs
    exact inside (automaton.valid.initial_lt state isMember)
  · intro block belongs
    obtain ⟨state, isMember, rfl⟩ := StateSet.mem_map.mp belongs
    exact inside (automaton.valid.accepting_lt state isMember)
  · intro edge listed
    obtain ⟨step, stepListed, rfl⟩ := List.mem_map.mp listed
    obtain ⟨targets, found, belongs⟩ := mem_targets_iff.mp (mem_edges_iff.mp stepListed)
    exact ⟨inside (automaton.valid.source_lt _ _ found), automaton.valid.symbol_lt _ _ found,
      inside (automaton.valid.target_lt _ _ found _ belongs)⟩

/-- The automaton whose states are the blocks of a partition. -/
def quotient (automaton : Automaton) (partition : Partition automaton.size) : Automaton :=
  ⟨automaton.quotientDraft partition, automaton.valid_quotientDraft partition⟩

def partitionBy (automaton : Automaton) (comparison : Comparison) :
    Except Ambiguity (Partition automaton.size) :=
  (automaton.refinement comparison).map Refinement.partition

/-- The automaton of merged states. -/
def minimizeBy (automaton : Automaton) (comparison : Comparison) : Except Ambiguity Automaton :=
  (automaton.partitionBy comparison).map automaton.quotient

/-- Merges states that have the very same successors. The result need not be minimal. -/
def minimize (automaton : Automaton) : Except Ambiguity Automaton :=
  automaton.minimizeBy .successors

/-- Merges states whose successors lie in the same classes. -/
def minimizeCanonical (automaton : Automaton) : Except Ambiguity Automaton :=
  automaton.minimizeBy .classes

end Automaton

end Acceptors
