import Acceptors.Proofs.CanonicalForm
import Acceptors.Proofs.Coarseness

/-!
Contract: when minimization leaves no two states that accept the same words.

Owns: words accepted and words read from a state, automata in which every two states
accept different words, and the condition under which comparing classes ends in one.
Does not own: the partition that compares classes, and the language as a whole.

Comparing classes separates states by what can be read as well as by what is accepted.
A state without transitions and one that only leads there accept the same words, none,
and stay apart.
-/

namespace Acceptors

namespace Automaton

variable {automaton : Automaton} {left right : Nat}

/-! ## Words from a state -/

def ReadsFrom (automaton : Automaton) (state : Nat) (word : Word) : Prop :=
  ∃ last, automaton.Run state word last

def AcceptsFrom (automaton : Automaton) (state : Nat) (word : Word) : Prop :=
  ∃ last ∈ automaton.accepting, automaton.Run state word last

def SameReadable (automaton : Automaton) (left right : Nat) : Prop :=
  ∀ word, automaton.OverAlphabet word →
    (automaton.ReadsFrom left word ↔ automaton.ReadsFrom right word)

def SameAccepted (automaton : Automaton) (left right : Nat) : Prop :=
  ∀ word, automaton.OverAlphabet word →
    (automaton.AcceptsFrom left word ↔ automaton.AcceptsFrom right word)

/-- For every two states there is a word that is accepted from exactly one of them. -/
def Separated (automaton : Automaton) : Prop :=
  ∀ left < automaton.size, ∀ right < automaton.size, left ≠ right →
    ∃ word, automaton.OverAlphabet word ∧
      ¬(automaton.AcceptsFrom left word ↔ automaton.AcceptsFrom right word)

theorem overAlphabet_of_readsFrom {state : Nat} {word : Word}
    (reads : automaton.ReadsFrom state word) : automaton.OverAlphabet word := by
  obtain ⟨last, run⟩ := reads
  exact overAlphabet_of_run run

theorem readsFrom_of_acceptsFrom {state : Nat} {word : Word}
    (accepts : automaton.AcceptsFrom state word) : automaton.ReadsFrom state word := by
  obtain ⟨last, _, run⟩ := accepts
  exact ⟨last, run⟩

/-- Words that are not over the alphabet need no comparison. -/
theorem forall_overAlphabet_iff {first second : Word → Prop}
    (firstOver : ∀ word, first word → automaton.OverAlphabet word)
    (secondOver : ∀ word, second word → automaton.OverAlphabet word) :
    (∀ word, automaton.OverAlphabet word → (first word ↔ second word)) ↔
      ∀ word, first word ↔ second word := by
  constructor
  · intro agree word
    constructor
    · intro holds
      exact (agree word (firstOver word holds)).mp holds
    · intro holds
      exact (agree word (secondOver word holds)).mpr holds
  · intro agree word _
    exact agree word

theorem sameReadable_iff :
    automaton.SameReadable left right ↔
      ∀ word, automaton.ReadsFrom left word ↔ automaton.ReadsFrom right word :=
  forall_overAlphabet_iff (fun _ => overAlphabet_of_readsFrom)
    (fun _ => overAlphabet_of_readsFrom)

theorem sameAccepted_iff :
    automaton.SameAccepted left right ↔
      ∀ word, automaton.AcceptsFrom left word ↔ automaton.AcceptsFrom right word :=
  forall_overAlphabet_iff
    (fun _ accepts => overAlphabet_of_readsFrom (readsFrom_of_acceptsFrom accepts))
    (fun _ accepts => overAlphabet_of_readsFrom (readsFrom_of_acceptsFrom accepts))

/-! ## Words and outcomes -/

namespace Unambiguous

variable {state : Nat} {word : Word}

theorem readsFrom_iff (unambiguous : automaton.Unambiguous) :
    automaton.ReadsFrom state word ↔ (automaton.outcome? state word).isSome := by
  simp only [ReadsFrom, unambiguous.run_iff_read?, outcome?, Option.isSome_map,
    Option.isSome_iff_exists]

theorem acceptsFrom_iff (unambiguous : automaton.Unambiguous) :
    automaton.AcceptsFrom state word ↔ automaton.outcome? state word = some true := by
  simp only [AcceptsFrom, unambiguous.run_iff_read?, outcome?, Option.map_eq_some_iff,
    isAccepting_iff, and_comm]

theorem sameOutcomes_iff (unambiguous : automaton.Unambiguous) :
    automaton.SameOutcomes left automaton right ↔
      automaton.SameAccepted left right ∧ automaton.SameReadable left right := by
  rw [sameAccepted_iff, sameReadable_iff]
  simp only [unambiguous.acceptsFrom_iff, unambiguous.readsFrom_iff]
  constructor
  · intro same
    exact ⟨fun word => by rw [same word], fun word => by rw [same word]⟩
  · intro ⟨accepted, readable⟩ word
    exact outcome_ext (accepted word) (readable word)

end Unambiguous

/-! ## Merged states -/

namespace Congruence

variable {partition : Partition automaton.size}

theorem sameAccepted_quotient_iff (congruence : automaton.Congruence partition)
    (unambiguous : automaton.Unambiguous) (leftInside : left < automaton.size)
    (rightInside : right < automaton.size) :
    (automaton.quotient partition).SameAccepted (partition.indexOf left)
        (partition.indexOf right) ↔ automaton.SameAccepted left right := by
  rw [sameAccepted_iff, sameAccepted_iff]
  simp only [(congruence.unambiguous_quotient unambiguous).acceptsFrom_iff,
    unambiguous.acceptsFrom_iff, congruence.outcome?_quotient unambiguous leftInside,
    congruence.outcome?_quotient unambiguous rightInside]

end Congruence

theorem separated_iff :
    automaton.Separated ↔ ∀ left < automaton.size, ∀ right < automaton.size,
      automaton.SameAccepted left right → left = right := by
  constructor
  · intro separated left leftInside right rightInside same
    apply Decidable.byContradiction
    intro different
    obtain ⟨word, overAlphabet, differs⟩ := separated left leftInside right rightInside different
    exact differs (same word overAlphabet)
  · intro equal left leftInside right rightInside different
    apply Classical.byContradiction
    intro none
    refine different (equal left leftInside right rightInside fun word overAlphabet => ?_)
    apply Classical.byContradiction
    intro differs
    exact none ⟨word, overAlphabet, differs⟩

/-- Merging by classes separates all states exactly when in the given automaton states
that accept the same words can also read the same words. -/
theorem separated_quotient_classes_iff (unambiguous : automaton.Unambiguous) :
    (automaton.quotient (automaton.refineBy .classes).partition).Separated ↔
      ∀ left < automaton.size, ∀ right < automaton.size,
        automaton.SameAccepted left right → automaton.SameReadable left right := by
  have congruence := automaton.congruence_refineBy .classes
  rw [separated_iff]
  constructor
  · intro equal left leftInside right rightInside same
    have together := equal _ (size_quotient _ ▸ Partition.indexOf_lt _ leftInside) _
      (size_quotient _ ▸ Partition.indexOf_lt _ rightInside)
      ((congruence.sameAccepted_quotient_iff unambiguous leftInside rightInside).mpr same)
    have outcomes :=
      (indexOf_refineBy_classes_eq_iff unambiguous leftInside rightInside).mp together
    exact (unambiguous.sameOutcomes_iff.mp outcomes).2
  · intro readable left leftInside right rightInside same
    rw [size_quotient] at leftInside rightInside
    obtain ⟨leftState, leftBelow, rfl⟩ := congruence.consistent.exists_indexOf_eq leftInside
    obtain ⟨rightState, rightBelow, rfl⟩ := congruence.consistent.exists_indexOf_eq rightInside
    have accepted := (congruence.sameAccepted_quotient_iff unambiguous leftBelow rightBelow).mp same
    apply (indexOf_refineBy_classes_eq_iff unambiguous leftBelow rightBelow).mpr
    exact unambiguous.sameOutcomes_iff.mpr
      ⟨accepted, readable leftState leftBelow rightState rightBelow accepted⟩

/-- From every state of a complete automaton all words over the alphabet can be read. -/
theorem Complete.sameReadable (complete : automaton.Complete) (leftInside : left < automaton.size)
    (rightInside : right < automaton.size) : automaton.SameReadable left right := by
  have reads {state : Nat} (inside : state < automaton.size) {word : Word}
      (overAlphabet : automaton.OverAlphabet word) : automaton.ReadsFrom state word := by
    have reached : automaton.reached (StateSet.singleton state) word ≠ ∅ :=
      complete.reached_ne_empty (StateSet.ne_empty_iff.mpr ⟨state, StateSet.mem_singleton.mpr rfl⟩)
        (fun other belongs => StateSet.mem_singleton.mp belongs ▸ inside) overAlphabet
    obtain ⟨last, belongs⟩ := StateSet.ne_empty_iff.mp reached
    obtain ⟨first, isState, run⟩ := mem_reached_iff.mp belongs
    exact ⟨last, StateSet.mem_singleton.mp isState ▸ run⟩
  intro word overAlphabet
  exact iff_of_true (reads leftInside overAlphabet) (reads rightInside overAlphabet)

/-- After minimization by classes no two states are indistinguishable. No two of them
accept the same words exactly when, before, states that accepted the same words could read
the same words, as in every complete automaton. -/
theorem minimizeCanonical_separated_iff (automaton : Automaton)
    (deterministic : automaton.checkDeterministic = .ok ()) :
    ∃ reduced, automaton.minimizeCanonical = .ok reduced ∧
      (∀ left < reduced.size, ∀ right < reduced.size, left ≠ right →
        ¬reduced.Indistinguishable left right) ∧
      (reduced.Separated ↔ ∀ left < automaton.size, ∀ right < automaton.size,
        automaton.SameAccepted left right → automaton.SameReadable left right) ∧
      (automaton.Complete → reduced.Separated) := by
  have unambiguous := checkDeterministic_eq_ok_iff.mp deterministic
  have separated_iff := separated_quotient_classes_iff unambiguous
  refine ⟨_, minimizeBy_eq_ok unambiguous .classes, ?_, separated_iff, ?_⟩
  · intro left leftInside right rightInside different indistinguishable
    have quotientUnambiguous :=
      (automaton.congruence_refineBy .classes).unambiguous_quotient unambiguous
    exact different (reduced_quotient_classes unambiguous left leftInside right rightInside
      (quotientUnambiguous.indistinguishable_iff_sameOutcomes.mp indistinguishable))
  · intro complete
    exact separated_iff.mpr fun left leftInside right rightInside _ =>
      complete.sameReadable leftInside rightInside

/-- Each of the two states that count the ones modulo two, twice. -/
def twiceEvenOnes : Automaton where
  toDraft := .ofEdges 4 2 (.ofList [0]) (.ofList [0, 2])
    [⟨0, 0, 2⟩, ⟨0, 1, 1⟩, ⟨1, 0, 3⟩, ⟨1, 1, 2⟩, ⟨2, 0, 0⟩, ⟨2, 1, 3⟩, ⟨3, 0, 1⟩, ⟨3, 1, 0⟩]
  valid := Draft.valid_ofEdges (by decide) (by decide) (by decide) (by decide) (by decide)
    (by decide)

theorem twiceEvenOnes_separated :
    twiceEvenOnes.checkDeterministic = .ok () ∧ twiceEvenOnes.Complete ∧
      ∃ reduced, twiceEvenOnes.minimizeCanonical = .ok reduced ∧ reduced.size = 2 ∧
        reduced.Separated := by
  have deterministic : twiceEvenOnes.checkDeterministic = .ok () := rfl
  have complete : twiceEvenOnes.Complete := by unfold Complete; decide
  have computed : twiceEvenOnes.minimizeCanonical.toOption.map (·.size) = some 2 := by
    decide +kernel
  obtain ⟨reduced, found, _, _, separated⟩ :=
    minimizeCanonical_separated_iff twiceEvenOnes deterministic
  rw [found] at computed
  exact ⟨deterministic, complete, reduced, found, Option.some.inj computed, separated complete⟩

/-! ## States that accept nothing -/

/-- One transition into a state without transitions, and no accepting state. -/
def deadEnds : Automaton where
  toDraft := .ofEdges 2 1 (.ofList [0]) ∅ [⟨0, 0, 1⟩]
  valid := Draft.valid_ofEdges (by decide) (by decide) (by decide) (by decide) (by decide)
    (by decide)

/-- Both states accept nothing, and minimization keeps both. -/
theorem deadEnds_not_separated :
    deadEnds.checkDeterministic = .ok () ∧
      ∃ reduced, deadEnds.minimizeCanonical = .ok reduced ∧ reduced.size = 2 ∧
        ¬reduced.Separated := by
  have computed : deadEnds.minimizeCanonical = .ok deadEnds := by
    rw [minimizeCanonical, minimizeBy_eq_ok (checkDeterministic_eq_ok_iff.mp rfl)]
    exact congrArg Except.ok (by decide +kernel)
  refine ⟨rfl, deadEnds, computed, rfl, fun separated => ?_⟩
  obtain ⟨word, _, differs⟩ := separated 0 (by decide) 1 (by decide) (by decide)
  refine differs (iff_of_false ?_ ?_)
  · rintro ⟨last, accepted, _⟩
    exact StateSet.not_mem_empty last accepted
  · rintro ⟨last, accepted, _⟩
    exact StateSet.not_mem_empty last accepted

end Automaton

end Acceptors
