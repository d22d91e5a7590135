import Acceptors.Proofs.Numbering
import Acceptors.Proofs.Reading
import Acceptors.SubsetConstruction

/-!
Contract: which subsets the discovery finds.

Owns: the effect of each step of the discovery on the listed subsets, the closure of
the finished discovery, and the subsets that it lists in the end.
Does not own: the automaton that is made of the subsets, and the order of numbers.

The loop keeps two facts. No number that was given is taken back, and every subset
whose number lies before the next one to be expanded has all its images listed.
-/

namespace Acceptors

namespace Discovery

variable {automaton : Automaton} {discovery : Discovery automaton}

def Lists (discovery : Discovery automaton) (subset : StateSet) : Prop :=
  subset ∈ discovery.subsets.toList

def Explores (discovery : Discovery automaton) (subset : StateSet) : Prop :=
  ∀ symbol < automaton.alphabetSize,
    automaton.image subset symbol ≠ ∅ → discovery.Lists (automaton.image subset symbol)

/-- Every number given so far stays with its subset. -/
def Extends (later earlier : Discovery automaton) : Prop :=
  ∀ (number : Nat) (subset : StateSet), earlier.subsets.key? number = some subset →
    later.subsets.key? number = some subset

theorem Extends.trans {first second third : Discovery automaton}
    (upper : third.Extends second) (lower : second.Extends first) : third.Extends first :=
  fun number subset found => upper number subset (lower number subset found)

theorem Extends.lists {later earlier : Discovery automaton} (extension : later.Extends earlier)
    {subset : StateSet} (listed : earlier.Lists subset) : later.Lists subset := by
  obtain ⟨number, found⟩ := Numbering.mem_toList_iff.mp listed
  exact Numbering.mem_of_key? (extension number subset found)

theorem Extends.size_le {later earlier : Discovery automaton} (extension : later.Extends earlier) :
    earlier.subsets.size ≤ later.subsets.size := by
  refine Nat.le_of_not_lt fun fewer => ?_
  obtain ⟨subset, found⟩ := Numbering.exists_key?_of_lt fewer
  exact Nat.lt_irrefl _ (Numbering.lt_size_of_key? (extension _ _ found))

theorem lists_start_iff {subset : StateSet} :
    (Discovery.start automaton).Lists subset ↔ subset = automaton.initial := by
  have listed : (Discovery.start automaton).Lists subset ↔
      subset = automaton.initial ∨ subset ∈ (Numbering.empty : Numbering StateSet).toList :=
    Numbering.mem_toList_insert
  rw [listed]
  simp [Numbering.toList, Numbering.empty]

/-! ## One symbol -/

theorem visit_extends (subset : StateSet) (symbol : Nat) :
    (discovery.visit subset symbol).Extends discovery := by
  intro number other found
  unfold visit
  split
  · exact found
  · exact Numbering.key?_insert found

theorem lists_visit_iff {subset other : StateSet} {symbol : Nat} :
    (discovery.visit subset symbol).Lists other ↔ discovery.Lists other ∨
      automaton.image subset symbol ≠ ∅ ∧ other = automaton.image subset symbol := by
  unfold visit
  split
  · rename_i nothing
    have none := StateSet.isEmpty_iff.mp nothing
    simp [none]
  · rename_i something
    have nonempty : automaton.image subset symbol ≠ ∅ :=
      fun none => something (StateSet.isEmpty_iff.mpr none)
    simp only [Lists, Numbering.mem_toList_insert, nonempty, ne_eq, not_false_eq_true, true_and]
    exact or_comm

/-! ## All symbols -/

theorem expand_extends (subset : StateSet) : (discovery.expand subset).Extends discovery := by
  have folded (symbols : List Nat) (current : Discovery automaton) :
      (symbols.foldl (fun current symbol => current.visit subset symbol) current).Extends
        current := by
    induction symbols generalizing current with
    | nil => exact fun _ _ found => found
    | cons head tail inductionHypothesis =>
        exact (inductionHypothesis (current.visit subset head)).trans (visit_extends subset head)
  exact folded automaton.symbols discovery

/-- Expanding a subset adds its nonempty images and nothing else. -/
theorem lists_expand_iff {subset other : StateSet} :
    (discovery.expand subset).Lists other ↔ discovery.Lists other ∨
      ∃ symbol < automaton.alphabetSize,
        automaton.image subset symbol ≠ ∅ ∧ other = automaton.image subset symbol := by
  have folded (symbols : List Nat) (current : Discovery automaton) :
      (symbols.foldl (fun current symbol => current.visit subset symbol) current).Lists other ↔
        current.Lists other ∨ ∃ symbol ∈ symbols,
          automaton.image subset symbol ≠ ∅ ∧ other = automaton.image subset symbol := by
    induction symbols generalizing current with
    | nil => simp
    | cons head tail inductionHypothesis =>
        rw [List.foldl_cons, inductionHypothesis, lists_visit_iff, or_assoc]
        simp only [List.mem_cons, or_and_right, exists_or, exists_eq_left]
  have all := folded automaton.symbols discovery
  simp only [Automaton.symbols, List.mem_range] at all
  exact all

theorem explores_expand (subset : StateSet) : (discovery.expand subset).Explores subset := by
  intro symbol inAlphabet nonempty
  exact lists_expand_iff.mpr (Or.inr ⟨symbol, inAlphabet, nonempty, rfl⟩)

/-! ## The loop -/

theorem complete_of_none {next : Nat} (finished : discovery.subsets.key? next = none) :
    discovery.complete next = discovery := by
  unfold complete
  split
  · rfl
  · rename_i subset waiting
    cases finished.symm.trans waiting

theorem complete_of_some {next : Nat} {subset : StateSet}
    (waiting : discovery.subsets.key? next = some subset) :
    discovery.complete next = (discovery.expand subset).complete (next + 1) := by
  rw [complete]
  split
  · rename_i finished
    cases finished.symm.trans waiting
  · rename_i other found
    cases waiting.symm.trans found
    rfl

theorem complete_extends (discovery : Discovery automaton) (next : Nat) :
    (discovery.complete next).Extends discovery := by
  fun_induction Discovery.complete discovery next with
  | case1 discovery next waiting => exact fun _ _ found => found
  | case2 discovery next subset waiting inductionHypothesis =>
      exact inductionHypothesis.trans (expand_extends subset)

/-- What holds of the listed subsets and passes to nonempty images holds in the end. -/
theorem forall_lists_complete {property : StateSet → Prop} {next : Nat}
    (images : ∀ subset, property subset → ∀ symbol < automaton.alphabetSize,
      automaton.image subset symbol ≠ ∅ → property (automaton.image subset symbol))
    (now : ∀ subset, discovery.Lists subset → property subset) :
    ∀ subset, (discovery.complete next).Lists subset → property subset := by
  fun_induction Discovery.complete discovery next with
  | case1 discovery next waiting => exact now
  | case2 discovery next subset waiting inductionHypothesis =>
      apply inductionHypothesis
      intro other listed
      rcases lists_expand_iff.mp listed with earlier | ⟨symbol, inAlphabet, nonempty, rfl⟩
      · exact now other earlier
      · exact images subset (now subset (Numbering.mem_of_key? waiting)) symbol inAlphabet nonempty

/-- Once every subset before `next` is explored, the loop explores the others. -/
theorem explores_complete {next : Nat}
    (before : ∀ number < next, ∀ subset, discovery.subsets.key? number = some subset →
      discovery.Explores subset) :
    ∀ subset, (discovery.complete next).Lists subset →
      (discovery.complete next).Explores subset := by
  fun_induction Discovery.complete discovery next with
  | case1 discovery next waiting =>
      intro subset listed
      obtain ⟨number, found⟩ := Numbering.mem_toList_iff.mp listed
      have inside : number < discovery.subsets.size := Numbering.lt_size_of_key? found
      have finished : discovery.subsets.size ≤ next := Array.getElem?_eq_none_iff.mp waiting
      exact before number (Nat.lt_of_lt_of_le inside finished) subset found
  | case2 discovery next subset waiting inductionHypothesis =>
      apply inductionHypothesis
      intro number atMost other found
      rcases Nat.lt_succ_iff_lt_or_eq.mp atMost with less | same
      · have inside : number < discovery.subsets.size :=
          Nat.lt_trans less (Numbering.lt_size_of_key? waiting)
        -- The number was in use before, so its subset is still the same.
        have earlier : discovery.subsets.key? number = some discovery.subsets.keys[number] :=
          Array.getElem?_eq_getElem inside
        have same : discovery.subsets.keys[number] = other := by
          have later := expand_extends subset number _ earlier
          rw [found] at later
          exact (Option.some.inj later).symm
        intro symbol inAlphabet nonempty
        exact (expand_extends subset).lists
          (before number less other (same ▸ earlier) symbol inAlphabet nonempty)
      · have later := expand_extends subset next subset waiting
        rw [← same, found] at later
        rw [Option.some.inj later]
        exact explores_expand subset

end Discovery

namespace Automaton

variable {automaton : Automaton}

/-! ## The reachable subsets -/

theorem reached_reachableSubsets {subset : StateSet} {word : Word}
    (listed : automaton.reachableSubsets.Lists subset)
    (nonempty : automaton.reached subset word ≠ ∅) :
    automaton.reachableSubsets.Lists (automaton.reached subset word) := by
  induction word generalizing subset with
  | nil => exact listed
  | cons symbol rest inductionHypothesis =>
      have inAlphabet : symbol < automaton.alphabetSize :=
        overAlphabet_of_reached_ne_empty nonempty symbol List.mem_cons_self
      have moves : automaton.image subset symbol ≠ ∅ := by
        intro nothing
        rw [reached_cons, nothing, reached_empty] at nonempty
        exact nonempty rfl
      have explored : automaton.reachableSubsets.Explores subset :=
        Discovery.explores_complete (fun _ before => absurd before (Nat.not_lt_zero _))
          subset listed
      exact inductionHypothesis (explored symbol inAlphabet moves) nonempty

/-- The discovery finds the nonempty sets that words over the alphabet reach from the
initial set. -/
theorem lists_reachableSubsets_iff {subset : StateSet} :
    automaton.reachableSubsets.Lists subset ↔ subset ≠ ∅ ∧
      ∃ word, automaton.OverAlphabet word ∧ automaton.reached automaton.initial word = subset := by
  constructor
  · apply Discovery.forall_lists_complete
    · rintro source ⟨_, word, overAlphabet, rfl⟩ symbol inAlphabet nonempty
      refine ⟨nonempty, word ++ [symbol], ?_, reached_append⟩
      intro other belongs
      rcases List.mem_append.mp belongs with earlier | last
      · exact overAlphabet other earlier
      · exact List.mem_singleton.mp last ▸ inAlphabet
    · intro source listed
      rw [Discovery.lists_start_iff.mp listed]
      exact ⟨automaton.valid.initial_nonempty, [], fun _ belongs => absurd belongs
        List.not_mem_nil, rfl⟩
  · rintro ⟨nonempty, word, _, rfl⟩
    exact reached_reachableSubsets (Numbering.mem_of_key? automaton.reachableSubsets.started)
      nonempty

end Automaton

end Acceptors
