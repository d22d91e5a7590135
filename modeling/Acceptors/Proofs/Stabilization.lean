import Acceptors.Proofs.Absorption
import Acceptors.Proofs.Alternation

/-!
Contract: raw minimization repeated until the size stays the same.

Owns: the order in which the raw minimization numbers accepting and rejecting states, the
automata on which it changes nothing, and the chain of repeated minimizations.
Does not own: the blocks of a raw partition, which the chain takes as they are listed.

The raw partition lists classes of accepting and of rejecting states in turn, so after one
minimization the accepting and the rejecting states are numbered in turn. If the next
minimization merges nothing, its classes are the states, in turn again, which is the order
that they have. Before the first minimization they may have any order.
-/

namespace Acceptors

/-! ## Lists that alternate -/

section

variable {Entry Image : Type}

theorem map_alternate (image : Entry → Image) (left right : List Entry) :
    (alternate left right).map image = alternate (left.map image) (right.map image) := by
  fun_induction alternate left right with
  | case1 right => simp
  | case2 left => simp
  | case3 first left second right inductionHypothesis => simp [alternate, inductionHypothesis]

theorem length_alternate (left right : List Entry) :
    (alternate left right).length = left.length + right.length := by
  fun_induction alternate left right with
  | case1 right => simp
  | case2 left => simp
  | case3 first left second right inductionHypothesis =>
      simp only [List.length_cons, inductionHypothesis]
      omega

/-- If the images of entries alternate between those that pass and those that fail, so do
the entries. -/
theorem alternate_filter {image : Entry → Image} {test : Image → Bool} {left right : List Image}
    (pass : ∀ entry ∈ left, test entry = true) (fail : ∀ entry ∈ right, test entry = false)
    {entries : List Entry} (images : entries.map image = alternate left right) :
    alternate (entries.filter fun entry => test (image entry) = true)
      (entries.filter fun entry => test (image entry) = false) = entries := by
  fun_induction alternate left right generalizing entries with
  | case1 right =>
      have none : ∀ entry ∈ entries, test (image entry) = false := by
        intro entry listed
        exact fail (image entry) (images ▸ List.mem_map_of_mem listed)
      rw [List.filter_eq_nil_iff.mpr (by simpa using none), alternate_nil_left,
        List.filter_eq_self.mpr (by simpa using none)]
  | case2 left =>
      have all : ∀ entry ∈ entries, test (image entry) = true := by
        intro entry listed
        exact pass (image entry) (images ▸ List.mem_map_of_mem listed)
      rw [List.filter_eq_self.mpr (by simpa using all),
        List.filter_eq_nil_iff.mpr (by simpa using all), alternate_nil_right]
  | case3 first left second right inductionHypothesis =>
      obtain ⟨head, tail, rfl, rfl, tailImages⟩ := List.map_eq_cons_iff.mp images
      obtain ⟨next, rest, rfl, rfl, restImages⟩ := List.map_eq_cons_iff.mp tailImages
      have headPasses := pass (image head) List.mem_cons_self
      have nextFails := fail (image next) List.mem_cons_self
      have others := inductionHypothesis
        (fun entry listed => pass entry (List.mem_cons_of_mem _ listed))
        (fun entry listed => fail entry (List.mem_cons_of_mem _ listed)) restImages
      simpa [headPasses, nextFails, alternate] using others

end

/-! ## Classes of one member -/

section

variable {Signature : Type} [DecidableEq Signature] {view : Nat → Signature}

theorem classes_eq_map_singleton {members : List Nat} (ascending : members.Pairwise (· < ·))
    (full : (classes view members).length = members.length) :
    classes view members = members.map fun state => [state] := by
  rw [classes, List.length_map, leaders, List.length_filter_eq_length_iff] at full
  have leading : ∀ state ∈ members, ∀ other ∈ members, other < state →
      view other ≠ view state := by simpa using full
  rw [classes, leaders, List.filter_eq_self.mpr full]
  apply List.map_congr_left
  intro first listed
  have alone : ∀ state ∈ members, decide (view state = view first) = (state == first) := by
    intro state belongs
    have apart := leading state belongs first listed
    have alsoApart := leading first listed state belongs
    grind
  have distinct : members.Nodup := ascending.imp Nat.ne_of_lt
  rw [List.filter_congr alone, List.filter_beq, distinct.count, if_pos listed]
  rfl

theorem length_classes_le (members : List Nat) :
    (classes view members).length ≤ members.length := by
  rw [classes, List.length_map]
  exact List.length_filter_le _ _

end

/-! ## Numbers that never grow -/

/-- Positive numbers that never grow stay the same at a place before the first of them. -/
theorem exists_lt_succ_eq {numbers : Nat → Nat} (positive : ∀ place, 0 < numbers place)
    (shrinking : ∀ place, numbers (place + 1) ≤ numbers place) :
    ∃ place < numbers 0, numbers (place + 1) = numbers place := by
  refine Decidable.byContradiction fun never => ?_
  have dropping (place : Nat) (early : place ≤ numbers 0) : numbers place + place ≤ numbers 0 := by
    induction place with
    | zero => exact Nat.le_refl _
    | succ place inductionHypothesis =>
        have before := inductionHypothesis (Nat.le_of_succ_le early)
        have le := shrinking place
        have different : numbers (place + 1) ≠ numbers place :=
          fun same => never ⟨place, early, same⟩
        omega
  have bound := dropping (numbers 0) (Nat.le_refl _)
  have some := positive (numbers 0)
  omega

namespace Automaton

variable {automaton : Automaton}

/-- The accepting or the rejecting states. -/
def statesOfKind (automaton : Automaton) (accepting : Bool) : List Nat :=
  automaton.states.filter fun state => automaton.isAccepting state = accepting

/-- Accepting and rejecting states are numbered in turn, an accepting one first, until only
one kind is left. -/
def AcceptsInTurn (automaton : Automaton) : Prop :=
  alternate (automaton.statesOfKind true) (automaton.statesOfKind false) = automaton.states

/-- The automaton of the raw partition. -/
def rawQuotient (automaton : Automaton) : Automaton :=
  automaton.quotient (automaton.refineBy .successors).partition

theorem blocks_refineBy_successors (automaton : Automaton) :
    (automaton.refineBy .successors).partition.blocks.toList =
      alternate (automaton.rowClasses true) (automaton.rowClasses false) := by
  have refined := @blocks_refine _ _ automaton.row _ automaton.acceptancePartition [] _ _
    automaton.blocks_acceptancePartition (by simp) (pairwise_filter_states _ _)
    (pairwise_filter_states _ _) automaton.accepting_or_rejecting_ne_nil
  rw [refineBy_eq]
  exact refined.1

/-! ## The order of merged states -/

theorem isAccepting_quotient_eq_any {partition : Partition automaton.size}
    (consistent : partition.Consistent) {block : Nat} {members : List Nat}
    (found : partition.block? block = some members) :
    (automaton.quotient partition).isAccepting block = members.any automaton.isAccepting := by
  apply Bool.eq_iff_iff.mpr
  rw [isAccepting_iff, accepting_quotient, StateSet.mem_map, List.any_eq_true]
  apply exists_congr
  intro state
  rw [consistent.mem_iff_indexOf found, isAccepting_iff]
  have inside := automaton.valid.accepting_lt state
  grind

theorem any_isAccepting_of_mem_rowClasses {accepting : Bool} {members : List Nat}
    (listed : members ∈ automaton.rowClasses accepting) :
    members.any automaton.isAccepting = accepting := by
  obtain ⟨first, leads, rfl⟩ := List.mem_map.mp listed
  have firstBelongs := (List.mem_filter.mp leads).1
  have kind {state : Nat} (belongs : state ∈ automaton.statesOfKind accepting) :
      automaton.isAccepting state = accepting := by
    simpa using (List.mem_filter.mp belongs).2
  cases accepting with
  | true =>
      refine List.any_eq_true.mpr ⟨first, ?_, kind firstBelongs⟩
      exact List.mem_filter.mpr ⟨firstBelongs, decide_eq_true rfl⟩
  | false =>
      apply List.any_eq_false.mpr
      intro state inClass
      rw [kind (List.mem_filter.mp inClass).1]
      exact Bool.false_ne_true

/-- One raw minimization puts the accepting and the rejecting states in turn. -/
theorem acceptsInTurn_rawQuotient (automaton : Automaton) :
    automaton.rawQuotient.AcceptsInTurn := by
  have consistent := (automaton.congruence_refineBy .successors).consistent
  have listed := automaton.blocks_refineBy_successors
  unfold rawQuotient
  generalize (automaton.refineBy .successors).partition = partition at consistent listed ⊢
  have states_eq : (automaton.quotient partition).states = List.range partition.count := by
    rw [states, size_quotient]
  have images : (List.range partition.count).map (fun block => (partition.block? block).getD []) =
      partition.blocks.toList := by
    apply List.ext_getElem (by simp [Partition.count])
    intro block below inside
    rw [List.getElem_map, List.getElem_range, Partition.block?_eq_some (by simpa using below)]
    rfl
  have kinds (accepting : Bool) : (automaton.quotient partition).statesOfKind accepting =
      (List.range partition.count).filter fun block =>
        ((partition.block? block).getD []).any automaton.isAccepting = accepting := by
    rw [statesOfKind, states_eq]
    apply List.filter_congr
    intro block below
    have found := Partition.block?_eq_some (List.mem_range.mp below)
    rw [isAccepting_quotient_eq_any consistent found, found]
    rfl
  rw [AcceptsInTurn, kinds true, kinds false, states_eq]
  exact alternate_filter (fun _ => any_isAccepting_of_mem_rowClasses)
    (fun _ => any_isAccepting_of_mem_rowClasses) (images.trans listed)

/-! ## Automata that are not changed -/

/-- The raw partition of as many blocks as there are states leaves every state its number. -/
theorem indexOf_refineBy_successors (inTurn : automaton.AcceptsInTurn)
    (full : (automaton.refineBy .successors).partition.count = automaton.size) {state : Nat}
    (inside : state < automaton.size) :
    (automaton.refineBy .successors).partition.indexOf state = state := by
  have consistent := (automaton.congruence_refineBy .successors).consistent
  have blocks := automaton.blocks_refineBy_successors
  have states_eq : automaton.states.length = automaton.size := List.length_range
  have blocks_eq : (automaton.refineBy .successors).partition.blocks.toList.length =
      automaton.size := full
  rw [← inTurn, length_alternate] at states_eq
  rw [blocks, length_alternate] at blocks_eq
  -- No kind has more classes than states, so both have as many.
  have fewAccepting : (automaton.rowClasses true).length ≤ (automaton.statesOfKind true).length :=
    length_classes_le _
  have fewRejecting :
      (automaton.rowClasses false).length ≤ (automaton.statesOfKind false).length :=
    length_classes_le _
  have accepting : automaton.rowClasses true =
      (automaton.statesOfKind true).map fun state => [state] :=
    classes_eq_map_singleton (pairwise_filter_states _ _)
      (show (automaton.rowClasses true).length = (automaton.statesOfKind true).length by omega)
  have rejecting : automaton.rowClasses false =
      (automaton.statesOfKind false).map fun state => [state] :=
    classes_eq_map_singleton (pairwise_filter_states _ _)
      (show (automaton.rowClasses false).length = (automaton.statesOfKind false).length by omega)
  have singletons : (automaton.refineBy .successors).partition.blocks.toList =
      automaton.states.map fun state => [state] := by
    rw [blocks, accepting, rejecting, ← map_alternate, inTurn]
  have found : (automaton.refineBy .successors).partition.block? state = some [state] := by
    rw [Partition.block?, ← Array.getElem?_toList, singletons]
    simp [states, inside]
  exact ((consistent.mem_iff_indexOf found).mp List.mem_cons_self).2

/-- Merging by a partition that leaves every state its number changes nothing. -/
theorem quotient_eq_self {partition : Partition automaton.size}
    (count_eq : partition.count = automaton.size)
    (fixes : ∀ state < automaton.size, partition.indexOf state = state) :
    automaton.quotient partition = automaton := by
  have map_eq {states : StateSet} (within : ∀ state ∈ states, state < automaton.size) :
      states.map partition.indexOf = states := by
    ext state
    rw [StateSet.mem_map]
    constructor
    · intro ⟨member, belongs, index⟩
      rwa [← index, fixes member (within member belongs)]
    · intro belongs
      exact ⟨state, belongs, fixes state (within state belongs)⟩
  apply ext_targets
  · rw [size_quotient, count_eq]
  · exact alphabetSize_quotient partition
  · rw [initial_quotient, map_eq automaton.valid.initial_lt]
  · rw [accepting_quotient, map_eq automaton.valid.accepting_lt]
  · intro block symbol
    ext other
    rw [mem_targets_quotient_iff]
    constructor
    · intro ⟨source, target, moves, sourceBlock, targetBlock⟩
      rw [← sourceBlock, ← targetBlock, fixes source (source_lt_of_mem_targets moves),
        fixes target (lt_size_of_mem_targets moves)]
      exact moves
    · intro moves
      exact ⟨block, other, moves, fixes block (source_lt_of_mem_targets moves),
        fixes other (lt_size_of_mem_targets moves)⟩

/-- Merging nothing changes nothing, if states are accepting in turn. -/
theorem rawQuotient_eq_self (inTurn : automaton.AcceptsInTurn)
    (size_eq : automaton.rawQuotient.size = automaton.size) :
    automaton.rawQuotient = automaton := by
  have full := (size_quotient (automaton.refineBy .successors).partition).symm.trans size_eq
  exact quotient_eq_self full fun _ => indexOf_refineBy_successors inTurn full

/-- Without this order, equal sizes do not mean equal numbers. -/
example : ∃ automaton : Automaton, automaton.rawQuotient.size = automaton.size ∧
    automaton.rawQuotient ≠ automaton := by
  refine ⟨⟨.ofEdges 2 1 (.ofList [0]) (.ofList [1]) [], Draft.valid_ofEdges (by decide)
    (by decide) (by decide) (by decide) (by decide) (by decide)⟩, by decide +kernel, ?_⟩
  exact fun same => absurd (congrArg (fun automaton => automaton.isAccepting 0) same)
    (by decide +kernel)

/-! ## The chain of minimizations -/

theorem minimize_eq_ok (unambiguous : automaton.Unambiguous) :
    automaton.minimize = .ok automaton.rawQuotient :=
  minimizeBy_eq_ok unambiguous .successors

theorem unambiguous_rawQuotient (unambiguous : automaton.Unambiguous) :
    automaton.rawQuotient.Unambiguous :=
  (automaton.congruence_refineBy .successors).unambiguous_quotient unambiguous

theorem size_rawQuotient_le (automaton : Automaton) :
    automaton.rawQuotient.size ≤ automaton.size := by
  rw [rawQuotient, size_quotient]
  exact (automaton.congruence_refineBy .successors).consistent.count_le

/-- The results of repeated raw minimization. -/
def rawChain (automaton : Automaton) : Nat → Automaton
  | 0 => automaton.rawQuotient
  | count + 1 => (automaton.rawChain count).rawQuotient

theorem unambiguous_rawChain (unambiguous : automaton.Unambiguous) (count : Nat) :
    (automaton.rawChain count).Unambiguous := by
  induction count with
  | zero => exact unambiguous_rawQuotient unambiguous
  | succ count inductionHypothesis => exact unambiguous_rawQuotient inductionHypothesis

theorem acceptsInTurn_rawChain (automaton : Automaton) (count : Nat) :
    (automaton.rawChain count).AcceptsInTurn := by
  cases count with
  | zero => exact acceptsInTurn_rawQuotient automaton
  | succ count => exact acceptsInTurn_rawQuotient (automaton.rawChain count)

/-- The chain has no other automaton any more once it has repeated one. -/
theorem rawChain_eq_of_le {count later : Nat}
    (repeats : automaton.rawChain (count + 1) = automaton.rawChain count)
    (follows : count ≤ later) : automaton.rawChain later = automaton.rawChain count := by
  induction follows with
  | refl => rfl
  | step _ inductionHypothesis => exact (congrArg rawQuotient inductionHypothesis).trans repeats

/-- Raw minimization can be repeated. Where two results in a row have the same size, they are
the same automaton, with the same numbers of states. Such a place comes before as many results
as there are states, and from there on nothing changes. -/
theorem minimize_stabilizes (automaton : Automaton)
    (deterministic : automaton.checkDeterministic = .ok ()) :
    ∃ chain : Nat → Automaton, automaton.minimize = .ok (chain 0) ∧
      (∀ count, (chain count).minimize = .ok (chain (count + 1))) ∧
      (∀ count, (chain (count + 1)).size = (chain count).size →
        chain (count + 1) = chain count) ∧
      ∃ count < automaton.size, (chain (count + 1)).size = (chain count).size ∧
        ∀ later ≥ count, chain later = chain count := by
  have unambiguous := checkDeterministic_eq_ok_iff.mp deterministic
  have repeats (count : Nat)
      (size_eq : (automaton.rawChain (count + 1)).size = (automaton.rawChain count).size) :
      automaton.rawChain (count + 1) = automaton.rawChain count :=
    rawQuotient_eq_self (automaton.acceptsInTurn_rawChain count) size_eq
  obtain ⟨count, early, size_eq⟩ :=
    @exists_lt_succ_eq (fun count => (automaton.rawChain count).size)
      (fun count => (automaton.rawChain count).valid.size_pos)
      (fun count => size_rawQuotient_le (automaton.rawChain count))
  refine ⟨automaton.rawChain, minimize_eq_ok unambiguous,
    fun count => minimize_eq_ok (unambiguous_rawChain unambiguous count), repeats,
    count, Nat.lt_of_lt_of_le early automaton.size_rawQuotient_le, size_eq, ?_⟩
  exact fun later follows => rawChain_eq_of_le (repeats count size_eq) follows

theorem minimize_twins_stabilizes :
    twins.checkDeterministic = .ok () ∧
    ∃ chain : Nat → Automaton, twins.minimize = .ok (chain 0) ∧
      (∀ count, (chain count).minimize = .ok (chain (count + 1))) ∧
      (∀ count, (chain (count + 1)).size = (chain count).size →
        chain (count + 1) = chain count) ∧
      ∃ count < twins.size, (chain (count + 1)).size = (chain count).size ∧
        ∀ later ≥ count, chain later = chain count :=
  ⟨rfl, minimize_stabilizes twins rfl⟩

end Automaton

end Acceptors
