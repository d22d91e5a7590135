import Acceptors.Proofs.Equivalence

/-!
Contract: comparing classes ends in the coarsest stable partition.

Owns: states that no word over the alphabet tells apart, relations that respect
acceptance and every symbol, and what the canonical partition has to do with both.
Does not own: the automaton of the blocks.

A stable relation can be followed along any word, so it relates states with the same
outcomes only. As the canonical partition puts all states with the same outcomes
together and is stable itself, no stable relation relates more.
-/

namespace Acceptors

namespace Automaton

variable {automaton : Automaton} {left right : Nat}

/-! ## States that no word tells apart -/

/-- Every word over the alphabet can be read from both states or from neither, and the
states in which it ends agree on acceptance. -/
def Indistinguishable (automaton : Automaton) (left right : Nat) : Prop :=
  ∀ word, automaton.OverAlphabet word →
    ((∃ last, automaton.Run left word last) ↔ ∃ last, automaton.Run right word last) ∧
      ∀ leftLast rightLast, automaton.Run left word leftLast →
        automaton.Run right word rightLast →
          automaton.isAccepting leftLast = automaton.isAccepting rightLast

/-- Outcomes are what words can tell of the states of a deterministic automaton. -/
theorem Unambiguous.indistinguishable_iff_sameOutcomes (unambiguous : automaton.Unambiguous) :
    automaton.Indistinguishable left right ↔ automaton.SameOutcomes left automaton right := by
  simp only [Indistinguishable, unambiguous.run_iff_read?]
  constructor
  · intro indistinguishable word
    have overAlphabet {first last : Nat} (found : automaton.read? first word = some last) :
        automaton.OverAlphabet word := overAlphabet_of_run (unambiguous.run_iff_read?.mpr found)
    rw [outcome?, outcome?]
    cases leftEnd : automaton.read? left word with
    | none =>
        cases rightEnd : automaton.read? right word with
        | none => rfl
        | some rightLast =>
            have readable := (indistinguishable word (overAlphabet rightEnd)).1
            rw [leftEnd, rightEnd] at readable
            simp at readable
    | some leftLast =>
        have agree := indistinguishable word (overAlphabet leftEnd)
        cases rightEnd : automaton.read? right word with
        | none =>
            rw [leftEnd, rightEnd] at agree
            simp at agree
        | some rightLast =>
            exact congrArg some (agree.2 leftLast rightLast leftEnd rightEnd)
  · intro same word _
    have outcomes : (automaton.read? left word).map automaton.isAccepting =
        (automaton.read? right word).map automaton.isAccepting := same word
    constructor
    · have readable := congrArg Option.isSome outcomes
      rw [Option.isSome_map, Option.isSome_map] at readable
      rw [← Option.isSome_iff_exists, ← Option.isSome_iff_exists, readable]
    · intro leftLast rightLast leftEnd rightEnd
      rw [leftEnd, rightEnd] at outcomes
      exact Option.some.inj outcomes

/-! ## Stable relations -/

/-- Related states agree on acceptance, and on every symbol both stop or both move on to
related states. -/
structure StableRelation (automaton : Automaton) (related : Nat → Nat → Prop) : Prop where
  accepting : ∀ left right, related left right →
    automaton.isAccepting left = automaton.isAccepting right
  successors : ∀ left right, related left right → ∀ symbol,
    Option.Rel related (automaton.successor? left symbol) (automaton.successor? right symbol)

theorem StableRelation.sameOutcomes {related : Nat → Nat → Prop}
    (stable : automaton.StableRelation related) (relation : related left right) :
    automaton.SameOutcomes left automaton right := by
  intro word
  induction word generalizing left right with
  | nil => rw [outcome?_nil, outcome?_nil, stable.accepting left right relation]
  | cons symbol rest inductionHypothesis =>
      have next := stable.successors left right relation symbol
      rw [outcome?_cons, outcome?_cons]
      generalize automaton.successor? left symbol = leftNext at next ⊢
      generalize automaton.successor? right symbol = rightNext at next ⊢
      cases next with
      | none => rfl
      | some relatedNext => exact inductionHypothesis relatedNext

/-- Lying together is stable in a partition that may be merged. -/
theorem Congruence.stableRelation {partition : Partition automaton.size}
    (congruence : automaton.Congruence partition) :
    automaton.StableRelation fun left right => partition.sameBlock? left right = some true where
  accepting := by
    intro left right sameBlock
    obtain ⟨leftInside, rightInside, together⟩ :=
      Partition.sameBlock?_eq_some_true_iff.mp sameBlock
    exact congruence.accepting left leftInside right rightInside together
  successors := by
    intro left right sameBlock symbol
    obtain ⟨leftInside, rightInside, together⟩ :=
      Partition.sameBlock?_eq_some_true_iff.mp sameBlock
    have blocks := congruence.successors left leftInside right rightInside together symbol
    cases leftMoves : automaton.successor? left symbol with
    | none =>
        cases rightMoves : automaton.successor? right symbol with
        | none => exact .none
        | some rightNext =>
            rw [leftMoves, rightMoves] at blocks
            cases blocks
    | some leftNext =>
        cases rightMoves : automaton.successor? right symbol with
        | none =>
            rw [leftMoves, rightMoves] at blocks
            cases blocks
        | some rightNext =>
            rw [leftMoves, rightMoves] at blocks
            exact .some (Partition.sameBlock?_eq_some_true_iff.mpr
              ⟨lt_size_of_successor? leftMoves, lt_size_of_successor? rightMoves,
                Option.some.inj blocks⟩)

/-! ## The canonical partition -/

theorem sameBlock?_refineBy_classes_iff (unambiguous : automaton.Unambiguous) :
    (automaton.refineBy .classes).partition.sameBlock? left right = some true ↔
      left < automaton.size ∧ right < automaton.size ∧
        automaton.SameOutcomes left automaton right := by
  rw [Partition.sameBlock?_eq_some_true_iff]
  apply and_congr_right
  intro leftInside
  apply and_congr_right
  intro rightInside
  exact indexOf_refineBy_classes_eq_iff unambiguous leftInside rightInside

/-- Comparing classes puts two states of a deterministic automaton together exactly when
no word over the alphabet tells them apart. Lying together is stable, and every stable
relation relates only states that lie together. -/
theorem canonicalPartition_coarsest (automaton : Automaton)
    (deterministic : automaton.checkDeterministic = .ok ()) :
    ∃ partition, automaton.partitionBy .classes = .ok partition ∧
      (∀ left < automaton.size, ∀ right < automaton.size,
        ∃ together, partition.sameBlock? left right = some together ∧
          (together = true ↔ automaton.Indistinguishable left right)) ∧
      automaton.StableRelation (fun left right => partition.sameBlock? left right = some true) ∧
      ∀ related, automaton.StableRelation related →
        ∀ left < automaton.size, ∀ right < automaton.size, related left right →
          partition.sameBlock? left right = some true := by
  have unambiguous := checkDeterministic_eq_ok_iff.mp deterministic
  refine ⟨_, partitionBy_eq_ok unambiguous .classes, ?_,
    (automaton.congruence_refineBy .classes).stableRelation, ?_⟩
  · intro left leftInside right rightInside
    refine ⟨_, Partition.sameBlock?_eq leftInside rightInside, ?_⟩
    rw [beq_iff_eq, indexOf_refineBy_classes_eq_iff unambiguous leftInside rightInside,
      unambiguous.indistinguishable_iff_sameOutcomes]
  · intro related stable left leftInside right rightInside relation
    exact (sameBlock?_refineBy_classes_iff unambiguous).mpr
      ⟨leftInside, rightInside, stable.sameOutcomes relation⟩

/-- Two ways to the accepting states 3 and 4, and two states from which nothing is
accepted: 5 moves on to 6, and 6 has no transition. -/
def twoWays : Automaton where
  toDraft := .ofEdges 7 2 (.ofList [0]) (.ofList [3, 4])
    [⟨0, 0, 1⟩, ⟨0, 1, 2⟩, ⟨1, 0, 3⟩, ⟨2, 0, 4⟩, ⟨3, 1, 1⟩, ⟨4, 1, 2⟩, ⟨1, 1, 6⟩, ⟨2, 1, 6⟩,
      ⟨5, 0, 6⟩]
  valid := Draft.valid_ofEdges (by decide) (by decide) (by decide) (by decide) (by decide)
    (by decide)

/-- Computing the partition decides that no word tells two states apart, and that some
word does although both states accept nothing. -/
theorem twoWays_indistinguishable :
    twoWays.checkDeterministic = .ok () ∧ twoWays.Indistinguishable 1 2 ∧
      ¬twoWays.Indistinguishable 5 6 := by
  have deterministic : twoWays.checkDeterministic = .ok () := rfl
  have computed : (twoWays.partitionBy .classes).toOption.map (fun partition =>
      (partition.sameBlock? 1 2, partition.sameBlock? 5 6)) =
        some (some true, some false) := by
    decide +kernel
  obtain ⟨partition, found, decides, _⟩ := canonicalPartition_coarsest twoWays deterministic
  rw [found] at computed
  obtain ⟨first, second⟩ := Prod.mk.inj (Option.some.inj computed)
  refine ⟨deterministic, ?_, fun indistinguishable => ?_⟩
  · obtain ⟨together, known, meaning⟩ := decides 1 (by decide) 2 (by decide)
    rw [first] at known
    exact meaning.mp (Option.some.inj known).symm
  · obtain ⟨together, known, meaning⟩ := decides 5 (by decide) 6 (by decide)
    rw [second] at known
    cases (Option.some.inj known).trans (meaning.mpr indistinguishable)

end Automaton

end Acceptors
