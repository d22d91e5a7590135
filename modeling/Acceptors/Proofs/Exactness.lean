import Acceptors.Proofs.Worklist

/-!
Contract: a subset construction holds the reachable subsets and nothing else.

Owns: the condition under which a deterministic automaton with its table of subsets is
exact for an automaton, and the exactness of what the loop over the queue ends in.
Does not own: the order in which subsets get their numbers, and the loop.

Exactness fixes everything but the order of the numbers: which subsets are listed, that
each is listed once, and where every symbol and every word leads from each of them.
-/

namespace Acceptors

/-- The states of the deterministic automaton are the numbers of the nonempty reachable
subsets, and they move and accept as the subsets do. -/
structure SubsetConstruction.ExactFor (construction : SubsetConstruction)
    (automaton : Automaton) : Prop where
  /-- The listed numbers are all states, in ascending order. -/
  numbers_eq : construction.subsets.entries.map Prod.fst = List.range construction.dfa.size
  /-- No subset is listed under two numbers. -/
  distinct : (construction.subsets.entries.map Prod.snd).Nodup
  mem_entries_iff : ∀ number subset,
    (number, subset) ∈ construction.subsets.entries ↔ construction.subset? number = some subset
  inverse : ∀ number subset,
    construction.subset? number = some subset ↔ construction.number? subset = some number
  initial : construction.subset? 0 = some automaton.initial
  reachable_iff : ∀ subset,
    (∃ number, construction.subset? number = some subset) ↔
      subset ≠ ∅ ∧ ∃ word, automaton.OverAlphabet word ∧
        automaton.reached automaton.initial word = subset
  accepting : ∀ number subset, construction.subset? number = some subset →
    construction.dfa.isAccepting number = subset.intersects automaton.accepting
  /-- A symbol leads to the number of the image. -/
  moves : ∀ number subset, construction.subset? number = some subset →
    ∀ symbol, automaton.image subset symbol ≠ ∅ →
      ∃ target, construction.number? (automaton.image subset symbol) = some target ∧
        construction.dfa.successor? number symbol = some target
  /-- A symbol with an empty image has no transition at all. -/
  stops : ∀ number subset, construction.subset? number = some subset →
    ∀ symbol, automaton.image subset symbol = ∅ →
      construction.dfa.successors? number symbol = none
  /-- A word that reaches some states ends in the number of the set of all of them. -/
  reads : ∀ word, automaton.reached automaton.initial word ≠ ∅ →
    ∃ number, construction.number? (automaton.reached automaton.initial word) = some number ∧
      ∀ last, construction.dfa.Run 0 word last ↔ last = number
  /-- A word that reaches no state cannot be read. -/
  dies : ∀ word, automaton.reached automaton.initial word = ∅ →
    ∀ last, ¬construction.dfa.Run 0 word last

namespace Automaton

variable {automaton : Automaton} {source : Nat} {subset : StateSet}

theorem successors?_determinize_eq_none
    (found : automaton.numberedSubsets.key? source = some subset) {symbol : Nat}
    (empty : automaton.image subset symbol = ∅) :
    automaton.determinize.successors? source symbol = none := by
  have noTarget : automaton.determinize.targets source symbol = ∅ := by
    ext target
    rw [← unambiguous_determinize.successor?_eq_some_iff, successor?_determinize found, empty,
      empty_not_numbered]
    simp
  have entry := Draft.getElem?_transitions automaton.determinize.valid.pruned ⟨source, symbol⟩
  rw [if_pos noTarget] at entry
  exact entry

theorem run_determinize_zero_iff {word : Word} {last : Nat} :
    automaton.determinize.Run 0 word last ↔
      automaton.numberedSubsets.number? (automaton.reached automaton.initial word) =
        some last := by
  rw [unambiguous_determinize.run_iff_read?, read?_determinize_zero]

theorem exactFor_subsetConstruction (automaton : Automaton) :
    automaton.subsetConstruction.ExactFor automaton where
  numbers_eq := by
    show automaton.numberedSubsets.entries.map Prod.fst = List.range automaton.determinize.size
    rw [Numbering.map_fst_entries, size_determinize]
  distinct := by
    show (automaton.numberedSubsets.entries.map Prod.snd).Nodup
    rw [Numbering.map_snd_entries]
    exact automaton.numberedSubsets.nodup_toList
  mem_entries_iff := fun _ _ => Numbering.mem_entries_iff
  inverse := fun _ _ => Numbering.number?_eq_some_iff.symm
  initial := automaton.reachableSubsets.started
  reachable_iff := by
    intro subset
    rw [← lists_reachableSubsets_iff]
    exact Numbering.mem_toList_iff.symm
  accepting := fun _ _ found => isAccepting_determinize found
  moves := by
    intro number subset found symbol nonempty
    obtain ⟨target, numbered⟩ := exists_number?_image found nonempty
    exact ⟨target, numbered, (successor?_determinize found symbol).trans numbered⟩
  stops := fun _ _ found _ empty => successors?_determinize_eq_none found empty
  reads := by
    intro word nonempty
    obtain ⟨number, numbered⟩ := exists_number?_reached_iff.mpr nonempty
    refine ⟨number, numbered, fun last => ?_⟩
    show automaton.determinize.Run 0 word last ↔ last = number
    rw [run_determinize_zero_iff, numbered, Option.some.injEq, eq_comm]
  dies := by
    intro word empty last run
    have numbered := run_determinize_zero_iff.mp run
    rw [empty, empty_not_numbered] at numbered
    cases numbered

/-- The loop over the queue ends in the subset construction, which is exact. -/
theorem subsetConstruction_exact (automaton : Automaton) :
    Worklist.EndsIn automaton automaton.subsetConstruction ∧
      automaton.subsetConstruction.ExactFor automaton :=
  ⟨Worklist.endsIn_subsetConstruction automaton, exactFor_subsetConstruction automaton⟩

end Automaton

end Acceptors
