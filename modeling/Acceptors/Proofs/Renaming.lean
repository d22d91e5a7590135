import Acceptors.Proofs.Lockstep

/-!
Contract: determinization forgets how states are named.

Owns: embeddings of one automaton into another, the equality of what both are determinized
to, and determinization applied twice.
Does not own: the steps that two discoveries take together.

Along an embedding a set of states corresponds to the set of the renamed states. Along a
determinization a single state corresponds to the subset that it stands for. Both
correspondences keep two discoveries in lockstep, so they find the same numbers.
-/

namespace Acceptors

namespace Automaton

variable {left right automaton : Automaton} {rename : Nat → Nat} {set other : StateSet}

/-! ## Embeddings -/

/-- New names under which the states of one automaton are states of another. The other
automaton may have further states, but no transition leads from the renamed states to them. -/
structure Embedding (left right : Automaton) (rename : Nat → Nat) : Prop where
  alphabetSize_eq : left.alphabetSize = right.alphabetSize
  lt_size : ∀ state < left.size, rename state < right.size
  injective : ∀ first < left.size, ∀ second < left.size,
    rename first = rename second → first = second
  initial_eq : right.initial = left.initial.map rename
  accepting_iff : ∀ state < left.size,
    state ∈ left.accepting ↔ rename state ∈ right.accepting
  targets_eq : ∀ state < left.size, ∀ symbol < left.alphabetSize,
    right.targets (rename state) symbol = (left.targets state symbol).map rename

/-- The states of a set are states of the automaton. -/
def Covers (automaton : Automaton) (set : StateSet) : Prop :=
  ∀ state ∈ set, state < automaton.size

/-- The second set consists of the new names of the first. -/
def Renamed (left : Automaton) (rename : Nat → Nat) (first second : StateSet) : Prop :=
  left.Covers first ∧ second = first.map rename

namespace Embedding

variable (embedding : Embedding left right rename)

include embedding

theorem image_map (covers : left.Covers set) {symbol : Nat}
    (inAlphabet : symbol < left.alphabetSize) :
    right.image (set.map rename) symbol = (left.image set symbol).map rename := by
  have targets {source : Nat} (belongs : source ∈ set) :=
    embedding.targets_eq source (covers source belongs) symbol inAlphabet
  ext state
  simp only [mem_image, StateSet.mem_map]
  constructor
  · rintro ⟨_, ⟨source, belongs, rfl⟩, reached⟩
    rw [targets belongs] at reached
    obtain ⟨target, moves, rfl⟩ := StateSet.mem_map.mp reached
    exact ⟨target, ⟨source, belongs, moves⟩, rfl⟩
  · rintro ⟨target, ⟨source, belongs, moves⟩, renamed⟩
    refine ⟨rename source, ⟨source, belongs, rfl⟩, ?_⟩
    rw [targets belongs]
    exact StateSet.mem_map.mpr ⟨target, moves, renamed⟩

theorem subset_of_map_eq (covers : left.Covers set) (otherCovers : left.Covers other)
    (same : set.map rename = other.map rename) : ∀ state ∈ set, state ∈ other := by
  intro state belongs
  have renamed : rename state ∈ other.map rename :=
    same ▸ StateSet.mem_map.mpr ⟨state, belongs, rfl⟩
  obtain ⟨source, inOther, sameName⟩ := StateSet.mem_map.mp renamed
  have same := embedding.injective source (otherCovers source inOther) state
    (covers state belongs) sameName
  exact same ▸ inOther

theorem map_injective (covers : left.Covers set) (otherCovers : left.Covers other)
    (same : set.map rename = other.map rename) : set = other := by
  ext state
  exact ⟨embedding.subset_of_map_eq covers otherCovers same state,
    embedding.subset_of_map_eq otherCovers covers same.symm state⟩

theorem intersects_map (covers : left.Covers set) :
    (set.map rename).intersects right.accepting = set.intersects left.accepting := by
  rw [Bool.eq_iff_iff, StateSet.intersects_iff, StateSet.intersects_iff]
  constructor
  · intro ⟨_, renamed, accepted⟩
    obtain ⟨state, belongs, rfl⟩ := StateSet.mem_map.mp renamed
    exact ⟨state, belongs, (embedding.accepting_iff state (covers state belongs)).mpr accepted⟩
  · intro ⟨state, belongs, accepted⟩
    exact ⟨rename state, StateSet.mem_map.mpr ⟨state, belongs, rfl⟩,
      (embedding.accepting_iff state (covers state belongs)).mp accepted⟩

/-- Renamed subsets are found in step with the subsets themselves. -/
theorem lockstep : Lockstep left right (left.Renamed rename) where
  alphabetSize_eq := embedding.alphabetSize_eq
  initial := ⟨left.valid.initial_lt, embedding.initial_eq⟩
  images := by
    intro first second ⟨covers, renamed⟩ symbol inAlphabet
    have image := embedding.image_map covers inAlphabet
    rw [renamed, image]
    by_cases nothing : left.image first symbol = ∅
    · rw [nothing]
      exact Or.inl ⟨rfl, rfl⟩
    · obtain ⟨state, reached⟩ := StateSet.ne_empty_iff.mp nothing
      have renamedReached : rename state ∈ (left.image first symbol).map rename :=
        StateSet.mem_map.mpr ⟨state, reached, rfl⟩
      exact Or.inr ⟨nothing, StateSet.ne_empty_iff.mpr ⟨_, renamedReached⟩,
        fun _ belongs => lt_size_of_mem_image belongs, rfl⟩
  unique := by
    intro first second ⟨covers, renamed⟩ otherFirst otherSecond ⟨otherCovers, otherRenamed⟩
    rw [renamed, otherRenamed]
    exact ⟨congrArg _, embedding.map_injective covers otherCovers⟩
  intersects_eq := by
    intro first second ⟨covers, renamed⟩
    rw [renamed, embedding.intersects_map covers]

end Embedding

/-- An automaton and any automaton that it is embedded into are determinized to the same
automaton, and equal numbers stand for corresponding subsets. -/
theorem determinize_eq_of_embedding (embedding : Embedding left right rename) :
    left.determinize = right.determinize ∧
      ∀ number, right.subsetConstruction.subset? number =
        (left.subsetConstruction.subset? number).map (StateSet.map rename) := by
  have paired := embedding.lockstep.paired_numberedSubsets
  refine ⟨embedding.lockstep.determinize_eq, fun number => ?_⟩
  show right.numberedSubsets.key? number = (left.numberedSubsets.key? number).map _
  cases found : left.numberedSubsets.key? number with
  | none =>
      rw [Numbering.key?_eq_none_iff, paired.size_eq] at found
      exact Numbering.key?_eq_none_iff.mpr found
  | some subset =>
      obtain ⟨_, otherFound, _, renamed⟩ := paired.exists_right found
      rw [otherFound, renamed]
      rfl

/-- Two initial states, and a choice on reading zero in the second one. -/
def twoGuesses : Automaton where
  toDraft := .ofEdges 4 2 (.ofList [0, 1]) (.ofList [3])
    [⟨0, 0, 0⟩, ⟨0, 1, 2⟩, ⟨1, 0, 2⟩, ⟨1, 0, 3⟩, ⟨2, 1, 3⟩, ⟨3, 0, 0⟩]
  valid := Draft.valid_ofEdges (by decide) (by decide) (by decide) (by decide) (by decide)
    (by decide)

/-- The same states in another order, and an accepting state that is not reached. -/
def shuffledGuesses : Automaton where
  toDraft := .ofEdges 5 2 (.ofList [0, 3]) (.ofList [1, 2])
    [⟨0, 0, 4⟩, ⟨0, 0, 1⟩, ⟨1, 0, 3⟩, ⟨2, 0, 0⟩, ⟨2, 1, 2⟩, ⟨3, 0, 3⟩, ⟨3, 1, 4⟩, ⟨4, 1, 1⟩]
  valid := Draft.valid_ofEdges (by decide) (by decide) (by decide) (by decide) (by decide)
    (by decide)

def shuffle (state : Nat) : Nat := [3, 0, 4, 1].getD state 0

theorem determinize_twoGuesses_eq :
    Embedding twoGuesses shuffledGuesses shuffle ∧
      twoGuesses.determinize = shuffledGuesses.determinize ∧
      ∀ number, shuffledGuesses.subsetConstruction.subset? number =
        (twoGuesses.subsetConstruction.subset? number).map (StateSet.map shuffle) := by
  have embedding : Embedding twoGuesses shuffledGuesses shuffle := {
    alphabetSize_eq := by decide
    lt_size := by decide
    injective := by decide
    initial_eq := by decide
    accepting_iff := by decide
    targets_eq := by decide }
  exact ⟨embedding, determinize_eq_of_embedding embedding⟩

/-! ## Determinizing twice -/

/-- A single state of the deterministic automaton and the subset that it stands for. -/
def StandsFor (automaton : Automaton) (first second : StateSet) : Prop :=
  ∃ number, first = StateSet.singleton number ∧
    automaton.numberedSubsets.key? number = some second

/-- In the deterministic automaton, single states are found in step with their subsets. -/
theorem lockstep_determinize (automaton : Automaton) :
    Lockstep automaton.determinize automaton automaton.StandsFor where
  alphabetSize_eq := alphabetSize_determinize
  initial := ⟨0, initial_determinize, automaton.reachableSubsets.started⟩
  images := by
    intro first second ⟨number, single, found⟩ symbol _
    rw [single, unambiguous_determinize.image_singleton, successor?_determinize found]
    cases numbered : automaton.numberedSubsets.number? (automaton.image second symbol) with
    | none =>
        refine Or.inl ⟨rfl, Decidable.byContradiction fun nonempty => ?_⟩
        obtain ⟨target, known⟩ := exists_number?_image found nonempty
        cases numbered.symm.trans known
    | some target =>
        have nonempty : StateSet.singleton target ≠ ∅ :=
          StateSet.ne_empty_iff.mpr ⟨target, StateSet.mem_singleton.mpr rfl⟩
        exact Or.inr ⟨nonempty, ne_empty_of_number? numbered, target, rfl,
          Numbering.number?_eq_some_iff.mp numbered⟩
  unique := by
    intro first second ⟨number, single, found⟩ otherFirst otherSecond
      ⟨otherNumber, otherSingle, otherFound⟩
    rw [single, otherSingle, StateSet.singleton_eq_singleton_iff]
    exact Numbering.number_eq_iff found otherFound
  intersects_eq := by
    intro first second ⟨number, single, found⟩
    rw [single, StateSet.singleton_intersects]
    exact isAccepting_determinize found

/-- Determinizing a second time changes nothing, not even the numbers of states: every state
is found again as the only member of the subset with its number. -/
theorem determinize_idempotent (automaton : Automaton) :
    automaton.determinize.determinize = automaton.determinize ∧
      ∀ state < automaton.determinize.size,
        automaton.determinize.subsetConstruction.subset? state =
          some (StateSet.singleton state) := by
  have lockstep := automaton.lockstep_determinize
  refine ⟨lockstep.determinize_eq, fun state inside => ?_⟩
  rw [size_determinize] at inside
  obtain ⟨subset, found⟩ := Numbering.exists_key?_of_lt inside
  obtain ⟨first, firstFound, number, single, sameFound⟩ :=
    lockstep.paired_numberedSubsets.exists_left found
  have same : state = number := (Numbering.number_eq_iff found sameFound).mpr rfl
  rw [same, ← single]
  exact same ▸ firstFound

end Automaton

end Acceptors
