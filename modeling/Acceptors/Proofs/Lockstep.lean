import Acceptors.Proofs.Determinization

/-!
Contract: two subset constructions that number alike.

Owns: the relations between the subsets of two automata under which both discoveries
take the same steps, and the equality of the constructed automata.
Does not own: relations of this kind that arise in particular.

The two discoveries stay paired: equally many subsets, and related subsets under equal
numbers. A relation that is one to one then lets both find the same images new.
-/

namespace Acceptors

variable {left right : Automaton} {related : StateSet → StateSet → Prop}

/-- A relation under which the subsets of two automata cannot be told apart: related
subsets are equally accepting, have related or empty images, and determine each other. -/
structure Lockstep (left right : Automaton) (related : StateSet → StateSet → Prop) : Prop where
  alphabetSize_eq : left.alphabetSize = right.alphabetSize
  initial : related left.initial right.initial
  images : ∀ first second, related first second → ∀ symbol < left.alphabetSize,
    left.image first symbol = ∅ ∧ right.image second symbol = ∅ ∨
      left.image first symbol ≠ ∅ ∧ right.image second symbol ≠ ∅ ∧
        related (left.image first symbol) (right.image second symbol)
  unique : ∀ first second, related first second →
    ∀ otherFirst otherSecond, related otherFirst otherSecond →
      (first = otherFirst ↔ second = otherSecond)
  intersects_eq : ∀ first second, related first second →
    first.intersects left.accepting = second.intersects right.accepting

/-- Equal numbers stand for related subsets, and as many numbers are in use. -/
structure Paired (related : StateSet → StateSet → Prop)
    (first second : Numbering StateSet) : Prop where
  size_eq : first.size = second.size
  related_of_key? : ∀ number leftSubset rightSubset, first.key? number = some leftSubset →
    second.key? number = some rightSubset → related leftSubset rightSubset

namespace Paired

variable {first second : Numbering StateSet} {number : Nat} {leftSubset rightSubset : StateSet}

theorem exists_right (paired : Paired related first second)
    (found : first.key? number = some leftSubset) :
    ∃ rightSubset, second.key? number = some rightSubset ∧ related leftSubset rightSubset := by
  have inside : number < second.size := paired.size_eq ▸ Numbering.lt_size_of_key? found
  obtain ⟨_, rightFound⟩ := Numbering.exists_key?_of_lt inside
  exact ⟨_, rightFound, paired.related_of_key? _ _ _ found rightFound⟩

theorem exists_left (paired : Paired related first second)
    (found : second.key? number = some rightSubset) :
    ∃ leftSubset, first.key? number = some leftSubset ∧ related leftSubset rightSubset := by
  have inside : number < first.size := paired.size_eq ▸ Numbering.lt_size_of_key? found
  obtain ⟨_, leftFound⟩ := Numbering.exists_key?_of_lt inside
  exact ⟨_, leftFound, paired.related_of_key? _ _ _ leftFound found⟩

/-- Related subsets have the same number, or none. -/
theorem number?_eq (paired : Paired related first second) (lockstep : Lockstep left right related)
    (relation : related leftSubset rightSubset) :
    first.number? leftSubset = second.number? rightSubset := by
  apply Option.ext
  intro number
  rw [Numbering.number?_eq_some_iff, Numbering.number?_eq_some_iff]
  constructor
  · intro found
    obtain ⟨other, otherFound, otherRelation⟩ := paired.exists_right found
    have same := (lockstep.unique _ _ relation _ _ otherRelation).mp rfl
    rw [same, otherFound]
  · intro found
    obtain ⟨other, otherFound, otherRelation⟩ := paired.exists_left found
    have same := (lockstep.unique _ _ relation _ _ otherRelation).mpr rfl
    rw [same, otherFound]

/-- Related subsets are new to both numberings or to neither. -/
theorem insert (paired : Paired related first second) (lockstep : Lockstep left right related)
    (relation : related leftSubset rightSubset) :
    Paired related (first.insert leftSubset) (second.insert rightSubset) := by
  have numbers := paired.number?_eq lockstep relation
  cases leftNumber : first.number? leftSubset with
  | some number =>
      rw [Numbering.insert_of_number? leftNumber,
        Numbering.insert_of_number? (numbers ▸ leftNumber)]
      exact paired
  | none =>
      have rightNumber : second.number? rightSubset = none := numbers ▸ leftNumber
      constructor
      · rw [Numbering.size_insert_of_new leftNumber, Numbering.size_insert_of_new rightNumber,
          paired.size_eq]
      · intro number leftOther rightOther leftFound rightFound
        rw [Numbering.key?_insert_of_new leftNumber] at leftFound
        rw [Numbering.key?_insert_of_new rightNumber, ← paired.size_eq] at rightFound
        by_cases last : number = first.size
        · rw [if_pos last] at leftFound rightFound
          cases leftFound
          cases rightFound
          exact relation
        · rw [if_neg last] at leftFound rightFound
          exact paired.related_of_key? number _ _ leftFound rightFound

end Paired

namespace Lockstep

variable {leftDiscovery : Discovery left} {rightDiscovery : Discovery right}
variable {first second : StateSet}

theorem visit (lockstep : Lockstep left right related)
    (paired : Paired related leftDiscovery.subsets rightDiscovery.subsets)
    (relation : related first second) {symbol : Nat} (inAlphabet : symbol < left.alphabetSize) :
    Paired related (leftDiscovery.visit first symbol).subsets
      (rightDiscovery.visit second symbol).subsets := by
  unfold Discovery.visit
  rcases lockstep.images first second relation symbol inAlphabet with
    ⟨leftEmpty, rightEmpty⟩ | ⟨leftNonempty, rightNonempty, imagesRelated⟩
  · rw [if_pos (StateSet.isEmpty_iff.mpr leftEmpty), if_pos (StateSet.isEmpty_iff.mpr rightEmpty)]
    exact paired
  · rw [if_neg (fun empty => leftNonempty (StateSet.isEmpty_iff.mp empty)),
      if_neg (fun empty => rightNonempty (StateSet.isEmpty_iff.mp empty))]
    exact paired.insert lockstep imagesRelated

theorem expand (lockstep : Lockstep left right related)
    (paired : Paired related leftDiscovery.subsets rightDiscovery.subsets)
    (relation : related first second) :
    Paired related (leftDiscovery.expand first).subsets
      (rightDiscovery.expand second).subsets := by
  have folded (symbols : List Nat) (inAlphabet : ∀ symbol ∈ symbols, symbol < left.alphabetSize)
      (leftNow : Discovery left) (rightNow : Discovery right)
      (now : Paired related leftNow.subsets rightNow.subsets) :
      Paired related
        (symbols.foldl (fun current symbol => current.visit first symbol) leftNow).subsets
        (symbols.foldl (fun current symbol => current.visit second symbol) rightNow).subsets := by
    induction symbols generalizing leftNow rightNow with
    | nil => exact now
    | cons head tail inductionHypothesis =>
        apply inductionHypothesis fun other later => inAlphabet other (List.mem_cons_of_mem _ later)
        exact lockstep.visit now relation (inAlphabet head List.mem_cons_self)
  have symbols_eq : right.symbols = left.symbols := by
    rw [Automaton.symbols, Automaton.symbols, lockstep.alphabetSize_eq]
  rw [Discovery.expand, Discovery.expand, symbols_eq]
  exact folded left.symbols (fun _ listed => List.mem_range.mp listed) _ _ paired

theorem complete (lockstep : Lockstep left right related) (next : Nat)
    (paired : Paired related leftDiscovery.subsets rightDiscovery.subsets) :
    Paired related (leftDiscovery.complete next).subsets
      (rightDiscovery.complete next).subsets := by
  fun_induction Discovery.complete leftDiscovery next generalizing rightDiscovery with
  | case1 leftDiscovery next finished =>
      have rightFinished : rightDiscovery.subsets.key? next = none := by
        rw [Numbering.key?_eq_none_iff] at finished ⊢
        exact paired.size_eq ▸ finished
      rw [Discovery.complete_of_none rightFinished]
      exact paired
  | case2 leftDiscovery next subset waiting inductionHypothesis =>
      obtain ⟨other, otherWaiting, relation⟩ := paired.exists_right waiting
      rw [Discovery.complete_of_some otherWaiting]
      exact inductionHypothesis (lockstep.expand paired relation)

theorem paired_numberedSubsets (lockstep : Lockstep left right related) :
    Paired related left.numberedSubsets right.numberedSubsets := by
  apply lockstep.complete 0
  constructor
  · rfl
  · intro number leftSubset rightSubset leftFound rightFound
    rw [(Discovery.lists_start_iff).mp (Numbering.mem_of_key? leftFound),
      (Discovery.lists_start_iff).mp (Numbering.mem_of_key? rightFound)]
    exact lockstep.initial

theorem targets_determinize_subset (lockstep : Lockstep left right related)
    {source symbol target : Nat} (moves : target ∈ left.determinize.targets source symbol) :
    target ∈ right.determinize.targets source symbol := by
  have paired := lockstep.paired_numberedSubsets
  obtain ⟨subset, found, inAlphabet, numbered⟩ := Automaton.mem_targets_determinize_iff.mp moves
  obtain ⟨other, otherFound, relation⟩ := paired.exists_right found
  apply Automaton.mem_targets_determinize_iff.mpr
  refine ⟨other, otherFound, lockstep.alphabetSize_eq ▸ inAlphabet, ?_⟩
  rcases lockstep.images subset other relation symbol inAlphabet with
    ⟨empty, _⟩ | ⟨_, _, imagesRelated⟩
  · rw [empty, Automaton.empty_not_numbered] at numbered
    cases numbered
  · rwa [← paired.number?_eq lockstep imagesRelated]

theorem accepting_determinize_subset (lockstep : Lockstep left right related) {state : Nat}
    (accepted : state ∈ left.determinize.accepting) : state ∈ right.determinize.accepting := by
  have paired := lockstep.paired_numberedSubsets
  have inside : state < left.numberedSubsets.size :=
    Automaton.size_determinize ▸ left.determinize.valid.accepting_lt state accepted
  obtain ⟨_, found⟩ := Numbering.exists_key?_of_lt inside
  obtain ⟨other, otherFound, relation⟩ := paired.exists_right found
  rw [← Automaton.isAccepting_iff] at accepted ⊢
  rw [Automaton.isAccepting_determinize found] at accepted
  rw [Automaton.isAccepting_determinize otherFound, ← lockstep.intersects_eq _ _ relation]
  exact accepted

theorem symm (lockstep : Lockstep left right related) :
    Lockstep right left fun first second => related second first where
  alphabetSize_eq := lockstep.alphabetSize_eq.symm
  initial := lockstep.initial
  images := by
    intro first second relation symbol inAlphabet
    rcases lockstep.images second first relation symbol
      (lockstep.alphabetSize_eq ▸ inAlphabet) with
      ⟨leftEmpty, rightEmpty⟩ | ⟨leftNonempty, rightNonempty, imagesRelated⟩
    · exact Or.inl ⟨rightEmpty, leftEmpty⟩
    · exact Or.inr ⟨rightNonempty, leftNonempty, imagesRelated⟩
  unique := fun first second relation otherFirst otherSecond otherRelation =>
    (lockstep.unique second first relation otherSecond otherFirst otherRelation).symm
  intersects_eq := fun first second relation =>
    (lockstep.intersects_eq second first relation).symm

/-- Subset constructions in lockstep produce the same automaton. -/
theorem determinize_eq (lockstep : Lockstep left right related) :
    left.determinize = right.determinize := by
  apply Automaton.ext_targets
  · rw [Automaton.size_determinize, Automaton.size_determinize]
    exact lockstep.paired_numberedSubsets.size_eq
  · rw [Automaton.alphabetSize_determinize, Automaton.alphabetSize_determinize]
    exact lockstep.alphabetSize_eq
  · rw [Automaton.initial_determinize, Automaton.initial_determinize]
  · ext state
    exact ⟨lockstep.accepting_determinize_subset, lockstep.symm.accepting_determinize_subset⟩
  · intro source symbol
    ext target
    exact ⟨lockstep.targets_determinize_subset, lockstep.symm.targets_determinize_subset⟩

end Lockstep

end Acceptors
