import Acceptors.Minimization
import Acceptors.Proofs.Determinism
import Acceptors.Proofs.Refinement
import Acceptors.Proofs.Simulation

/-!
Contract: merging the states of a deterministic automaton.

Owns: the partitions by which states may be merged, the automaton of their blocks, and
what both minimizations keep.
Does not own: how small the result is compared to other automata.

A congruence puts states together only if they agree on acceptance and move into the
same blocks. Both comparisons end in a congruence, and merging by a congruence keeps
the outcome of every word from every state.
-/

namespace Acceptors

namespace Automaton

variable {automaton : Automaton}

/-- States that lie together are accepting together. -/
def AcceptsAlike (automaton : Automaton) (partition : Partition automaton.size) : Prop :=
  ∀ left < automaton.size, ∀ right < automaton.size,
    partition.indexOf left = partition.indexOf right →
      automaton.isAccepting left = automaton.isAccepting right

/-- States that lie together agree on acceptance and on the blocks of their successors. -/
structure Congruence (automaton : Automaton) (partition : Partition automaton.size) : Prop where
  consistent : partition.Consistent
  accepting : automaton.AcceptsAlike partition
  successors : ∀ left < automaton.size, ∀ right < automaton.size,
    partition.indexOf left = partition.indexOf right → ∀ symbol,
      (automaton.successor? left symbol).map partition.indexOf =
        (automaton.successor? right symbol).map partition.indexOf

/-! ## Refinement ends in a congruence -/

theorem map_indexOf_row {partition : Partition automaton.size} {comparison : Comparison}
    {left right : Nat}
    (same : automaton.signature comparison partition left =
      automaton.signature comparison partition right) (symbol : Nat) :
    (automaton.successor? left symbol).map partition.indexOf =
      (automaton.successor? right symbol).map partition.indexOf := by
  have rows : (automaton.row left).map (Option.map partition.indexOf) =
      (automaton.row right).map (Option.map partition.indexOf) := by
    cases comparison with
    | successors => exact congrArg (List.map (Option.map partition.indexOf)) same
    | classes => exact same
  rcases Nat.lt_or_ge symbol automaton.alphabetSize with inAlphabet | outside
  · rw [row, row, List.map_map, List.map_map, List.map_inj_left] at rows
    exact rows symbol (List.mem_range.mpr inAlphabet)
  · rw [successor?_eq_none_of_symbol outside, successor?_eq_none_of_symbol outside]

theorem acceptsAlike_acceptancePartition : automaton.AcceptsAlike automaton.acceptancePartition :=
  fun _ leftInside _ rightInside together =>
    (Partition.indexOf_ofTest_eq_iff leftInside rightInside).mp together

/-- Divisions never put an accepting and a rejecting state together. -/
theorem survives_acceptsAlike
    (signature : Partition automaton.size → Nat → List (Option Nat)) :
    Survives signature fun partition =>
      partition.Consistent ∧ automaton.AcceptsAlike partition := by
  intro partition block first rest different found ⟨consistent, agree⟩
  refine ⟨survives_consistent partition block first rest different found consistent, ?_⟩
  intro left leftInside right rightInside together
  apply agree left leftInside right rightInside
  exact ((Partition.indexOf_divide_eq_iff consistent found
    (fun _ moved => (mem_unlike_iff.mp moved).1) leftInside rightInside).mp together).1

theorem congruence_refineBy (automaton : Automaton) (comparison : Comparison) :
    automaton.Congruence (automaton.refineBy comparison).partition := by
  rw [refineBy_eq]
  have kept := (survives_acceptsAlike (automaton.signature comparison)).refine
    ⟨Partition.consistent_ofTest automaton.size automaton.isAccepting,
      acceptsAlike_acceptancePartition⟩
  refine { consistent := kept.1, accepting := kept.2, successors := ?_ }
  intro left leftInside right rightInside together symbol
  obtain ⟨members, found, leftBelongs⟩ := kept.1.exists_block? leftInside
  have rightBelongs := (kept.1.mem_iff_indexOf found).mpr ⟨rightInside, together.symm⟩
  exact map_indexOf_row
    (uniform_refine _ _ members found left leftBelongs right rightBelongs) symbol

/-! ## The automaton of the blocks -/

theorem size_quotient (partition : Partition automaton.size) :
    (automaton.quotient partition).size = partition.count :=
  Draft.size_ofEdges

theorem alphabetSize_quotient (partition : Partition automaton.size) :
    (automaton.quotient partition).alphabetSize = automaton.alphabetSize :=
  Draft.alphabetSize_ofEdges

theorem initial_quotient (partition : Partition automaton.size) :
    (automaton.quotient partition).initial = automaton.initial.map partition.indexOf :=
  Draft.initial_ofEdges

theorem accepting_quotient (partition : Partition automaton.size) :
    (automaton.quotient partition).accepting = automaton.accepting.map partition.indexOf :=
  Draft.accepting_ofEdges

theorem mem_targets_quotient_iff {partition : Partition automaton.size}
    {block symbol other : Nat} :
    other ∈ (automaton.quotient partition).targets block symbol ↔
      ∃ source target, target ∈ automaton.targets source symbol ∧
        partition.indexOf source = block ∧ partition.indexOf target = other := by
  have listed : other ∈ (automaton.quotient partition).targets block symbol ↔
      Edge.mk block symbol other ∈ automaton.edges.map fun edge =>
        Edge.mk (partition.indexOf edge.source) edge.symbol (partition.indexOf edge.target) :=
    Draft.mem_targets_ofEdges
  rw [listed, List.mem_map]
  constructor
  · intro ⟨⟨source, _, target⟩, moves, same⟩
    cases same
    exact ⟨source, target, mem_edges_iff.mp moves, rfl, rfl⟩
  · intro ⟨source, target, moves, sourceBlock, targetBlock⟩
    refine ⟨⟨source, symbol, target⟩, mem_edges_iff.mpr moves, ?_⟩
    rw [sourceBlock, targetBlock]

namespace Congruence

variable {partition : Partition automaton.size}

theorem isAccepting_quotient (congruence : automaton.Congruence partition) {state : Nat}
    (inside : state < automaton.size) :
    (automaton.quotient partition).isAccepting (partition.indexOf state) =
      automaton.isAccepting state := by
  apply Bool.eq_iff_iff.mpr
  rw [isAccepting_iff, accepting_quotient, StateSet.mem_map]
  constructor
  · intro ⟨member, isMember, together⟩
    have below := automaton.valid.accepting_lt member isMember
    rw [← congruence.accepting member below state inside together]
    exact isAccepting_iff.mpr isMember
  · intro accepted
    exact ⟨state, isAccepting_iff.mp accepted, rfl⟩

theorem unambiguous_quotient (congruence : automaton.Congruence partition)
    (unambiguous : automaton.Unambiguous) : (automaton.quotient partition).Unambiguous := by
  intro block symbol left right leftMoves rightMoves
  obtain ⟨source, target, moves, sourceBlock, rfl⟩ := mem_targets_quotient_iff.mp leftMoves
  obtain ⟨other, otherTarget, otherMoves, otherBlock, rfl⟩ :=
    mem_targets_quotient_iff.mp rightMoves
  have agree := congruence.successors source (source_lt_of_mem_targets moves) other
    (source_lt_of_mem_targets otherMoves) (sourceBlock.trans otherBlock.symm) symbol
  rw [unambiguous.successor?_eq_some_iff.mpr moves,
    unambiguous.successor?_eq_some_iff.mpr otherMoves] at agree
  exact Option.some.inj agree

/-- The block of a state moves to the block of the state's successor. -/
theorem successor?_quotient (congruence : automaton.Congruence partition)
    (unambiguous : automaton.Unambiguous) {state : Nat} (inside : state < automaton.size)
    (symbol : Nat) :
    (automaton.quotient partition).successor? (partition.indexOf state) symbol =
      (automaton.successor? state symbol).map partition.indexOf := by
  apply Option.ext
  intro block
  rw [(congruence.unambiguous_quotient unambiguous).successor?_eq_some_iff,
    mem_targets_quotient_iff]
  constructor
  · intro ⟨source, target, moves, together, targetBlock⟩
    rw [← congruence.successors source (source_lt_of_mem_targets moves) state inside together,
      unambiguous.successor?_eq_some_iff.mpr moves, Option.map_some, targetBlock]
  · intro moved
    obtain ⟨target, found, targetBlock⟩ := Option.map_eq_some_iff.mp moved
    exact ⟨state, target, mem_targets_of_successor? found, rfl, targetBlock⟩

/-- A word ends in the block of the state in which it ends. -/
theorem read?_quotient (congruence : automaton.Congruence partition)
    (unambiguous : automaton.Unambiguous) {state : Nat} (inside : state < automaton.size)
    (word : Word) :
    (automaton.quotient partition).read? (partition.indexOf state) word =
      (automaton.read? state word).map partition.indexOf := by
  induction word generalizing state with
  | nil => rfl
  | cons symbol rest inductionHypothesis =>
      rw [read?, read?, congruence.successor?_quotient unambiguous inside]
      cases found : automaton.successor? state symbol with
      | none => rfl
      | some next => exact inductionHypothesis (lt_size_of_successor? found)

/-- Merging keeps the outcome of every word from every state. -/
theorem outcome?_quotient (congruence : automaton.Congruence partition)
    (unambiguous : automaton.Unambiguous) {state : Nat} (inside : state < automaton.size)
    (word : Word) :
    (automaton.quotient partition).outcome? (partition.indexOf state) word =
      automaton.outcome? state word := by
  rw [outcome?, outcome?, congruence.read?_quotient unambiguous inside]
  cases found : automaton.read? state word with
  | none => rfl
  | some last =>
      exact congrArg some (congruence.isAccepting_quotient (lt_size_of_read? inside found))

/-- The initial blocks have the outcomes of the initial states. -/
theorem exists_initial_quotient_iff (congruence : automaton.Congruence partition)
    (unambiguous : automaton.Unambiguous) (word : Word) (property : Option Bool → Prop) :
    (∃ block ∈ (automaton.quotient partition).initial,
      property ((automaton.quotient partition).outcome? block word)) ↔
      ∃ first ∈ automaton.initial, property (automaton.outcome? first word) := by
  have same {first : Nat} (isInitial : first ∈ automaton.initial) :=
    congruence.outcome?_quotient unambiguous (automaton.valid.initial_lt first isInitial) word
  rw [initial_quotient]
  constructor
  · intro ⟨_, belongs, holds⟩
    obtain ⟨first, isInitial, rfl⟩ := StateSet.mem_map.mp belongs
    exact ⟨first, isInitial, same isInitial ▸ holds⟩
  · intro ⟨first, isInitial, holds⟩
    have belongs : partition.indexOf first ∈ automaton.initial.map partition.indexOf :=
      StateSet.mem_map.mpr ⟨first, isInitial, rfl⟩
    exact ⟨partition.indexOf first, belongs, (same isInitial).symm ▸ holds⟩

theorem accepts_quotient_iff (congruence : automaton.Congruence partition)
    (unambiguous : automaton.Unambiguous) {word : Word} :
    (automaton.quotient partition).Accepts word ↔ automaton.Accepts word := by
  rw [(congruence.unambiguous_quotient unambiguous).accepts_iff_outcome?,
    unambiguous.accepts_iff_outcome?]
  exact congruence.exists_initial_quotient_iff unambiguous word (· = some true)

theorem readable_quotient_iff (congruence : automaton.Congruence partition)
    (unambiguous : automaton.Unambiguous) {word : Word} :
    (automaton.quotient partition).Readable word ↔ automaton.Readable word := by
  rw [(congruence.unambiguous_quotient unambiguous).readable_iff_outcome?,
    unambiguous.readable_iff_outcome?]
  exact congruence.exists_initial_quotient_iff unambiguous word (·.isSome)

end Congruence

/-! ## Both minimizations -/

theorem partitionBy_eq_ok (unambiguous : automaton.Unambiguous) (comparison : Comparison) :
    automaton.partitionBy comparison = .ok (automaton.refineBy comparison).partition := by
  rw [partitionBy, refinement, checkDeterministic_eq_ok_iff.mpr unambiguous]
  rfl

theorem minimizeBy_eq_ok (unambiguous : automaton.Unambiguous) (comparison : Comparison) :
    automaton.minimizeBy comparison =
      .ok (automaton.quotient (automaton.refineBy comparison).partition) := by
  rw [minimizeBy, partitionBy_eq_ok unambiguous]
  rfl

end Automaton

end Acceptors
