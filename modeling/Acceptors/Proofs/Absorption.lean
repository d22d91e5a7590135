import Acceptors.Proofs.Equivalence
import Acceptors.Proofs.Mirror

/-!
Contract: minimizing an automaton whose states have been merged before.

Owns: the condition under which merging states first makes no difference to the canonical
minimization, and that both minimizations meet it.
Does not own: two refinements that divide in step, which this module only starts.

The canonical minimization of merged states follows the one of the original states. Both
represent their blocks by matching states if merging has not changed the order in which
states lead their blocks. The canonical partition keeps this order because no block loses
its representative, and the raw partition because, of blocks that are accepting alike, a
block with a smaller number has a smaller representative.
-/

namespace Acceptors

namespace Automaton

variable {automaton : Automaton} {partition : Partition automaton.size}

/-! ## Minimizing merged states -/

namespace Congruence

/-- Merging names every state by its block. -/
def naming (congruence : automaton.Congruence partition) :
    Naming automaton.size (automaton.quotient partition).size where
  name := partition.indexOf
  name_lt := by
    intro state inside
    rw [size_quotient]
    exact partition.indexOf_lt inside
  exists_name_eq := by
    intro block inside
    rw [size_quotient] at inside
    exact congruence.consistent.exists_indexOf_eq inside

variable (congruence : automaton.Congruence partition)
variable {left : Partition automaton.size} {right : Partition (automaton.quotient partition).size}

include congruence

theorem mirrors_acceptancePartition :
    Mirrors congruence.naming automaton.acceptancePartition
      (automaton.quotient partition).acceptancePartition :=
  .ofTest congruence.naming fun _ inside => congruence.isAccepting_quotient inside

theorem signature_quotient (unambiguous : automaton.Unambiguous)
    (mirrors : Mirrors congruence.naming left right) {state : Nat}
    (inside : state < automaton.size) :
    (automaton.quotient partition).signature .classes right (partition.indexOf state) =
      automaton.signature .classes left state := by
  show ((automaton.quotient partition).row (partition.indexOf state)).map
    (Option.map right.indexOf) = (automaton.row state).map (Option.map left.indexOf)
  rw [row, row, symbols, symbols, alphabetSize_quotient, List.map_map, List.map_map,
    List.map_inj_left]
  intro symbol _
  show ((automaton.quotient partition).successor? (partition.indexOf state) symbol).map
    right.indexOf = (automaton.successor? state symbol).map left.indexOf
  rw [congruence.successor?_quotient unambiguous inside]
  cases found : automaton.successor? state symbol with
  | none => rfl
  | some next => exact congrArg some (mirrors.indexOf_name next (lt_size_of_successor? found))

theorem map_map_indexOf (mirrors : Mirrors congruence.naming left right) {states : StateSet}
    (within : ∀ state ∈ states, state < automaton.size) :
    (states.map partition.indexOf).map right.indexOf = states.map left.indexOf := by
  have index (state : Nat) (belongs : state ∈ states) :
      right.indexOf (partition.indexOf state) = left.indexOf state :=
    mirrors.indexOf_name state (within state belongs)
  ext block
  simp only [StateSet.mem_map]
  constructor
  · rintro ⟨_, ⟨state, belongs, rfl⟩, found⟩
    exact ⟨state, belongs, index state belongs ▸ found⟩
  · rintro ⟨state, belongs, found⟩
    exact ⟨_, ⟨state, belongs, rfl⟩, (index state belongs).trans found⟩

/-- Merging blocks by a matching partition is merging the states at once. -/
theorem quotient_quotient (mirrors : Mirrors congruence.naming left right) :
    (automaton.quotient partition).quotient right = automaton.quotient left := by
  have index {state : Nat} (inside : state < automaton.size) :
      right.indexOf (partition.indexOf state) = left.indexOf state :=
    mirrors.indexOf_name state inside
  apply ext_targets
  · exact (size_quotient right).trans (mirrors.count_eq.symm.trans (size_quotient left).symm)
  · rw [alphabetSize_quotient, alphabetSize_quotient, alphabetSize_quotient]
  · rw [initial_quotient, initial_quotient, initial_quotient]
    exact congruence.map_map_indexOf mirrors automaton.valid.initial_lt
  · rw [accepting_quotient, accepting_quotient, accepting_quotient]
    exact congruence.map_map_indexOf mirrors automaton.valid.accepting_lt
  · intro block symbol
    ext other
    simp only [mem_targets_quotient_iff]
    constructor
    · rintro ⟨_, _, ⟨source, target, moves, rfl, rfl⟩, sourceBlock, targetBlock⟩
      refine ⟨source, target, moves, ?_, ?_⟩
      · rw [← index (source_lt_of_mem_targets moves), sourceBlock]
      · rw [← index (lt_size_of_mem_targets moves), targetBlock]
    · rintro ⟨source, target, moves, sourceBlock, targetBlock⟩
      refine ⟨_, _, ⟨source, target, moves, rfl, rfl⟩, ?_, ?_⟩
      · rw [index (source_lt_of_mem_targets moves), sourceBlock]
      · rw [index (lt_size_of_mem_targets moves), targetBlock]

/-- If merging keeps the order in which states lead the blocks of the canonical minimization,
it makes no difference to the result. -/
theorem minimizeCanonical_quotient (unambiguous : automaton.Unambiguous)
    {property : Partition automaton.size → Prop}
    (survives : Survives (automaton.signature .classes) property)
    (holds : property automaton.acceptancePartition)
    (least : ∀ partition, property partition →
      partition.GrowsTo (automaton.refineBy .classes).partition →
        partition.LeastFirst congruence.naming) :
    (automaton.quotient partition).minimizeCanonical = automaton.minimizeCanonical := by
  have mirrors : Mirrors congruence.naming (automaton.refineBy .classes).partition
      ((automaton.quotient partition).refineBy .classes).partition := by
    rw [refineBy_eq] at least ⊢
    rw [refineBy_eq]
    exact Mirrors.refine survives
      (fun _ _ mirrors _ inside => congruence.signature_quotient unambiguous mirrors inside)
      holds least congruence.mirrors_acceptancePartition
  rw [minimizeCanonical, minimizeCanonical, minimizeBy_eq_ok unambiguous,
    minimizeBy_eq_ok (congruence.unambiguous_quotient unambiguous),
    congruence.quotient_quotient mirrors]

end Congruence

/-! ## Canonical minimization twice -/

/-- A block keeps its first member and its number to the end, and its other members get no
smaller numbers than this one. -/
theorem leastFirst_refineBy {comparison : Comparison} {earlier : Partition automaton.size}
    (grows : earlier.GrowsTo (automaton.refineBy comparison).partition) :
    earlier.LeastFirst (automaton.congruence_refineBy comparison).naming := by
  intro state inside first leads
  have index := ((automaton.congruence_refineBy comparison).consistent.of_first?
    (grows.first?_eq (earlier.indexOf state) first leads)).2
  have grown := grows.indexOf_le state inside
  show (automaton.refineBy comparison).partition.indexOf first ≤
    (automaton.refineBy comparison).partition.indexOf state
  omega

/-- Minimizing a second time changes nothing, not even the numbers of states. -/
theorem minimizeCanonical_idempotent (automaton : Automaton)
    (deterministic : automaton.checkDeterministic = .ok ()) :
    ∃ reduced, automaton.minimizeCanonical = .ok reduced ∧
      reduced.minimizeCanonical = .ok reduced := by
  have unambiguous := checkDeterministic_eq_ok_iff.mp deterministic
  have reduces := minimizeBy_eq_ok unambiguous .classes
  refine ⟨_, reduces, ?_⟩
  rw [(automaton.congruence_refineBy .classes).minimizeCanonical_quotient unambiguous
    survives_consistent (Partition.consistent_ofTest _ _) fun _ _ => leastFirst_refineBy]
  exact reduces

/-- Three pairs of equivalent states. Only the states of the last pair, 5 and 6, have
equal successors. -/
def twins : Automaton where
  toDraft := .ofEdges 7 2 (.ofList [0]) (.ofList [3, 4, 5, 6])
    [⟨0, 0, 1⟩, ⟨0, 1, 2⟩, ⟨1, 0, 3⟩, ⟨2, 0, 4⟩, ⟨3, 1, 5⟩, ⟨4, 1, 6⟩]
  valid := Draft.valid_ofEdges (by decide) (by decide) (by decide) (by decide) (by decide)
    (by decide)

theorem minimizeCanonical_idempotent_twins :
    twins.checkDeterministic = .ok () ∧
      ∃ reduced, twins.minimizeCanonical = .ok reduced ∧
        reduced.minimizeCanonical = .ok reduced :=
  ⟨rfl, minimizeCanonical_idempotent twins rfl⟩

/-! ## The order of raw blocks -/

/-- Of blocks that are accepting alike, those with smaller numbers have smaller
representatives, and only the last one can still be divided. -/
structure Chained (automaton : Automaton) (partition : Partition automaton.size) : Prop where
  consistent : partition.Consistent
  ascending : partition.Ascending
  acceptsAlike : automaton.AcceptsAlike partition
  chain : ∀ left right leftFirst rightFirst, partition.first? left = some leftFirst →
    partition.first? right = some rightFirst → left < right →
      automaton.isAccepting leftFirst = automaton.isAccepting rightFirst →
        leftFirst < rightFirst ∧ UniformAt (automaton.signature .successors) partition left

namespace Chained

variable {block first : Nat} {rest : List Nat}
  (found : partition.block? block = some (first :: rest))
  (different : unlike (automaton.signature .successors partition) (first :: rest) first ≠ [])

include found

/-- The members that stay in a block have equal rows. -/
theorem uniformAt_divideBy_self :
    UniformAt (automaton.signature .successors)
      (partition.divideBy (automaton.signature .successors) block first rest different) block := by
  have inside := Partition.lt_count_of_block? found
  intro members listed left leftBelongs right rightBelongs
  rw [Partition.divideBy, Partition.block?_divide inside, if_neg (by omega), if_pos rfl] at listed
  cases listed
  exact (mem_alike_iff.mp leftBelongs).2.trans (mem_alike_iff.mp rightBelongs).2.symm

/-- Blocks that are not divided keep their members, whose rows do not change. -/
theorem uniformAt_divideBy_of_ne {other : Nat} (inside : other < partition.count)
    (apart : other ≠ block)
    (uniform : UniformAt (automaton.signature .successors) partition other) :
    UniformAt (automaton.signature .successors)
      (partition.divideBy (automaton.signature .successors) block first rest different) other := by
  intro members listed
  rw [Partition.divideBy, Partition.block?_divide (Partition.lt_count_of_block? found),
    if_neg (by omega), if_neg apart] at listed
  exact uniform members listed

/-- The new block is the last of those that are accepting alike. -/
theorem chain_new (chained : automaton.Chained partition) {left leftFirst moved : Nat}
    (leads : partition.first? left = some leftFirst)
    (isMoved : moved ∈ unlike (automaton.signature .successors partition) (first :: rest) first)
    (agree : automaton.isAccepting leftFirst = automaton.isAccepting moved) :
    leftFirst < moved ∧
      UniformAt (automaton.signature .successors)
        (partition.divideBy (automaton.signature .successors) block first rest different) left := by
  obtain ⟨belongs, unequal⟩ := mem_unlike_iff.mp isMoved
  have blockLeads := Partition.first?_eq_some found
  have firstIs := chained.consistent.of_first? blockLeads
  have movedIs := (chained.consistent.mem_iff_indexOf found).mp belongs
  have firstAgrees : automaton.isAccepting leftFirst = automaton.isAccepting first :=
    agree.trans (chained.acceptsAlike moved movedIs.1 first firstIs.1
      (movedIs.2.trans firstIs.2.symm))
  have first_le := chained.ascending.first_le found belongs
  rcases Nat.lt_trichotomy left block with less | same | greater
  · have earlier := chained.chain left block leftFirst first leads blockLeads less firstAgrees
    exact ⟨by omega, uniformAt_divideBy_of_ne found different (Partition.lt_count_of_first? leads)
      (by omega) earlier.2⟩
  · subst same
    have sameFirst : leftFirst = first := Option.some.inj (leads.symm.trans blockLeads)
    have apart : moved ≠ first := fun equal => unequal (equal ▸ rfl)
    exact ⟨by omega, uniformAt_divideBy_self found different⟩
  · have uniform := (chained.chain block left first leftFirst blockLeads leads greater
      firstAgrees.symm).2
    exact absurd uniform (not_uniformAt_of_unlike found different)

end Chained

theorem survives_chained : Survives (automaton.signature .successors) automaton.Chained := by
  intro partition block first rest different found chained
  have kept := survives_acceptsAlike (automaton.signature .successors) partition block first rest
    different found ⟨chained.consistent, chained.acceptsAlike⟩
  refine {
    consistent := kept.1
    ascending := survives_ascending partition block first rest different found chained.ascending
    acceptsAlike := kept.2
    chain := ?_ }
  intro left right leftFirst rightFirst leftLeads rightLeads less agree
  have below := Partition.lt_count_of_first? rightLeads
  rw [Partition.divideBy, Partition.count_divide] at below
  rw [Partition.first?_divideBy found different] at leftLeads rightLeads
  rw [if_neg (by omega)] at leftLeads
  by_cases new : right = partition.count
  · rw [if_pos new] at rightLeads
    exact chained.chain_new found different leftLeads (List.mem_of_head? rightLeads) agree
  · rw [if_neg new] at rightLeads
    have earlier := chained.chain left right leftFirst rightFirst leftLeads rightLeads less agree
    have apart : left ≠ block := by
      intro same
      subst same
      exact not_uniformAt_of_unlike found different earlier.2
    exact ⟨earlier.1, Chained.uniformAt_divideBy_of_ne found different
      (Partition.lt_count_of_first? leftLeads) apart earlier.2⟩

/-- No two blocks of the acceptance partition are accepting alike. -/
theorem chained_acceptancePartition : automaton.Chained automaton.acceptancePartition where
  consistent := Partition.consistent_ofTest automaton.size automaton.isAccepting
  ascending := Partition.ascending_ofTest automaton.size automaton.isAccepting
  acceptsAlike := acceptsAlike_acceptancePartition
  chain := by
    have consistent := Partition.consistent_ofTest automaton.size automaton.isAccepting
    intro left right leftFirst rightFirst leftLeads rightLeads less agree
    have leftIs := consistent.of_first? leftLeads
    have rightIs := consistent.of_first? rightLeads
    have together := (Partition.indexOf_ofTest_eq_iff leftIs.1 rightIs.1).mpr agree
    omega

theorem chained_refineBy_successors :
    automaton.Chained (automaton.refineBy .successors).partition := by
  rw [refineBy_eq]
  exact survives_chained.refine chained_acceptancePartition

/-! ## Canonical minimization after raw minimization -/

/-- What the partitions on the way of the canonical minimization have in common. -/
structure Intermediate (automaton : Automaton) (partition : Partition automaton.size) :
    Prop where
  consistent : partition.Consistent
  ascending : partition.Ascending
  acceptsAlike : automaton.AcceptsAlike partition
  respects : automaton.Respects partition

theorem intermediate_acceptancePartition :
    automaton.Intermediate automaton.acceptancePartition where
  consistent := Partition.consistent_ofTest automaton.size automaton.isAccepting
  ascending := Partition.ascending_ofTest automaton.size automaton.isAccepting
  acceptsAlike := acceptsAlike_acceptancePartition
  respects := respects_acceptancePartition

theorem survives_intermediate :
    Survives (automaton.signature .classes) automaton.Intermediate :=
  fun partition block first rest different found kept => {
    consistent := survives_consistent partition block first rest different found kept.consistent
    ascending := survives_ascending partition block first rest different found kept.ascending
    acceptsAlike := (survives_acceptsAlike _ partition block first rest different found
      ⟨kept.consistent, kept.acceptsAlike⟩).2
    respects := (survives_respects partition block first rest different found
      ⟨kept.consistent, kept.respects⟩).2 }

/-- A block on the way of the canonical minimization holds all of every raw block that it
meets, so its representative represents the first of these raw blocks. -/
theorem Intermediate.leastFirst (unambiguous : automaton.Unambiguous)
    {earlier : Partition automaton.size} (intermediate : automaton.Intermediate earlier) :
    earlier.LeastFirst (automaton.congruence_refineBy .successors).naming := by
  have congruence := automaton.congruence_refineBy .successors
  have chained := @chained_refineBy_successors automaton
  intro state inside first leads
  obtain ⟨rest, found⟩ := Partition.first?_eq_some_iff.mp leads
  obtain ⟨firstInside, firstIndex⟩ := intermediate.consistent.of_first? leads
  -- Were the raw block of the first member a later one, its representative `own` would come
  -- after the representative `other` of the raw block of the state.
  refine Nat.le_of_not_lt fun less => ?_
  obtain ⟨own, own_le, ownLeads, ownInside, ownIndex⟩ :=
    chained.ascending.exists_first? chained.consistent firstInside
  obtain ⟨other, _, otherLeads, otherInside, otherIndex⟩ :=
    chained.ascending.exists_first? chained.consistent inside
  have agree : automaton.isAccepting other = automaton.isAccepting own := by
    rw [congruence.accepting other otherInside state inside otherIndex,
      intermediate.acceptsAlike state inside first firstInside firstIndex.symm,
      congruence.accepting own ownInside first firstInside ownIndex]
  have other_lt := (chained.chain _ _ other own otherLeads ownLeads less agree).1
  have together := intermediate.respects other otherInside state inside
    (congruence.sameOutcomes unambiguous otherInside inside otherIndex)
  have belongs := (intermediate.consistent.mem_iff_indexOf found).mpr ⟨otherInside, together⟩
  have first_le := intermediate.ascending.first_le found belongs
  omega

/-- Merging states with equal successors first makes no difference to the canonical
minimization, not even to the numbers of states. -/
theorem minimizeCanonical_minimize (automaton : Automaton)
    (deterministic : automaton.checkDeterministic = .ok ()) :
    ∃ raw reduced, automaton.minimize = .ok raw ∧ raw.minimizeCanonical = .ok reduced ∧
      automaton.minimizeCanonical = .ok reduced := by
  have unambiguous := checkDeterministic_eq_ok_iff.mp deterministic
  have reduces := minimizeBy_eq_ok unambiguous .classes
  refine ⟨_, _, minimizeBy_eq_ok unambiguous .successors, ?_, reduces⟩
  rw [(automaton.congruence_refineBy .successors).minimizeCanonical_quotient unambiguous
    survives_intermediate intermediate_acceptancePartition
    fun _ intermediate _ => intermediate.leastFirst unambiguous]
  exact reduces

theorem minimizeCanonical_minimize_twins :
    twins.checkDeterministic = .ok () ∧
      ∃ raw reduced, twins.minimize = .ok raw ∧ raw.minimizeCanonical = .ok reduced ∧
        twins.minimizeCanonical = .ok reduced :=
  ⟨rfl, minimizeCanonical_minimize twins rfl⟩

end Automaton

end Acceptors
