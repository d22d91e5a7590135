import Acceptors.Automaton
import Acceptors.Numbering
import Acceptors.StateSet.Counting

/-!
Contract: the deterministic automaton over the reachable sets of states.

Owns: the discovery of the reachable subsets, their numbers, the automaton that
has them as states, and the text that shows both.
Does not own: runs on words.

Subsets are expanded in the order of their numbers and symbols are tried in
ascending order, so numbers follow the order of discovery. The search ends
because distinct subsets of the states are at most two to the power of `size`.
-/

namespace Acceptors

/-- The subsets found so far. The initial set is number zero and every subset lies
inside the automaton. -/
structure Discovery (automaton : Automaton) where
  subsets : Numbering StateSet
  started : subsets.key? 0 = some automaton.initial
  within : ∀ subset ∈ subsets.toList, ∀ state ∈ subset, state < automaton.size

namespace Discovery

variable {automaton : Automaton}

def start (automaton : Automaton) : Discovery automaton where
  subsets := Numbering.singleton automaton.initial
  started := rfl
  within := by
    intro subset listed state belongs
    have same : subset = automaton.initial := by
      simpa [Numbering.singleton, Numbering.toList, Numbering.empty] using
        Numbering.mem_toList_insert.mp listed
    exact automaton.valid.initial_lt state (same ▸ belongs)

/-- Notes the subset that is reached on a symbol, unless nothing is reached. -/
def visit (discovery : Discovery automaton) (subset : StateSet) (symbol : Nat) :
    Discovery automaton :=
  if (automaton.image subset symbol).isEmpty then discovery
  else {
    subsets := discovery.subsets.insert (automaton.image subset symbol)
    started := Numbering.key?_insert discovery.started
    within := by
      intro other listed state belongs
      rcases Numbering.mem_toList_insert.mp listed with same | earlier
      · exact Automaton.lt_size_of_mem_image (same ▸ belongs)
      · exact discovery.within other earlier state belongs }

/-- Notes every subset that is reached by one symbol, symbols ascending. -/
def expand (discovery : Discovery automaton) (subset : StateSet) : Discovery automaton :=
  automaton.symbols.foldl (fun current symbol => current.visit subset symbol) discovery

theorem size_le_pow (discovery : Discovery automaton) :
    discovery.subsets.size ≤ Nat.pow 2 automaton.size := by
  rw [Numbering.size_eq_length]
  exact StateSet.length_le_pow discovery.subsets.nodup_toList discovery.within

/-- Expands the subsets from number `next` on until none is left. -/
def complete (discovery : Discovery automaton) (next : Nat) : Discovery automaton :=
  match waiting : discovery.subsets.key? next with
  | none => discovery
  | some subset => (discovery.expand subset).complete (next + 1)
termination_by Nat.pow 2 automaton.size - next
decreasing_by
  have inside := Numbering.lt_size_of_key? waiting
  have bound := discovery.size_le_pow
  omega

end Discovery

namespace Automaton

/-- The nonempty sets of states that are reached by reading words, in order of discovery. -/
def reachableSubsets (automaton : Automaton) : Discovery automaton :=
  (Discovery.start automaton).complete 0

/-- The edges between numbered subsets: one for each symbol whose image has a number. -/
def subsetEdges (automaton : Automaton) (subsets : Numbering StateSet) : List Edge :=
  subsets.entries.flatMap fun entry =>
    automaton.symbols.filterMap fun symbol =>
      (subsets.number? (automaton.image entry.2 symbol)).map fun target =>
        ⟨entry.1, symbol, target⟩

/-- The numbers of the subsets that contain an accepting state. -/
def acceptingSubsets (automaton : Automaton) (subsets : Numbering StateSet) : StateSet :=
  StateSet.ofList ((subsets.entries.filter fun entry =>
    entry.2.intersects automaton.accepting).map Prod.fst)

/-- The draft whose states are the numbers of the given subsets. -/
def subsetDraft (automaton : Automaton) (subsets : Numbering StateSet) : Draft :=
  .ofEdges subsets.size automaton.alphabetSize (StateSet.singleton 0)
    (automaton.acceptingSubsets subsets) (automaton.subsetEdges subsets)

theorem valid_subsetDraft (automaton : Automaton) (discovery : Discovery automaton) :
    (automaton.subsetDraft discovery.subsets).Valid := by
  have size_pos := Numbering.lt_size_of_key? discovery.started
  refine Draft.valid_ofEdges size_pos automaton.valid.alphabetSize_pos
    (StateSet.ne_empty_iff.mpr ⟨0, by simp⟩) (by simpa using size_pos) ?_ ?_
  · intro number belongs
    obtain ⟨entry, listed, rfl⟩ := List.mem_map.mp (StateSet.mem_ofList.mp belongs)
    exact Numbering.lt_size_of_key? (Numbering.mem_entries_iff.mp (List.mem_filter.mp listed).1)
  · intro edge listed
    obtain ⟨entry, subsetListed, fromSubset⟩ := List.mem_flatMap.mp listed
    obtain ⟨symbol, inAlphabet, found⟩ := List.mem_filterMap.mp fromSubset
    obtain ⟨target, number, rfl⟩ := Option.map_eq_some_iff.mp found
    exact ⟨Numbering.lt_size_of_key? (Numbering.mem_entries_iff.mp subsetListed),
      List.mem_range.mp inAlphabet, Numbering.lt_size_of_number? number⟩

end Automaton

/-- A deterministic automaton together with the sets of states that its states stand for. -/
structure SubsetConstruction where
  dfa : Automaton
  subsets : Numbering StateSet

/-- The automaton over a discovery. State zero stands for the initial set and is the only
initial state; a symbol that leads nowhere from a subset has no transition there. -/
def SubsetConstruction.ofDiscovery {automaton : Automaton} (discovery : Discovery automaton) :
    SubsetConstruction where
  dfa := ⟨automaton.subsetDraft discovery.subsets, automaton.valid_subsetDraft discovery⟩
  subsets := discovery.subsets

def Automaton.subsetConstruction (automaton : Automaton) : SubsetConstruction :=
  .ofDiscovery automaton.reachableSubsets

def Automaton.determinize (automaton : Automaton) : Automaton :=
  automaton.subsetConstruction.dfa

namespace SubsetConstruction

/-- The set that a state of the deterministic automaton stands for. -/
def subset? (construction : SubsetConstruction) (number : Nat) : Option StateSet :=
  construction.subsets.key? number

/-- The state that stands for a set of states, if that set is reached. -/
def number? (construction : SubsetConstruction) (subset : StateSet) : Option Nat :=
  construction.subsets.number? subset

end SubsetConstruction

end Acceptors
