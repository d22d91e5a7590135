import Acceptors.Attempt
import Acceptors.Proofs.Completeness
import Acceptors.Proofs.Densities

/-!
Contract: whatever is drawn is well-formed, from every generator.

Owns: what a draw yields from every generator, the bounds on drawn numbers, and the automata and
words that they lead to.
Does not own: how values are distributed, and how far the generator has gone.

A loop of draws beside itself is a coupled one, so what each round yields stands at its place in
the list that is drawn. Only the length of a word can be in range and still be too great.
-/

namespace Acceptors.Random

/-! ## What a draw yields -/

/-- From every generator the drawn value has the property. -/
def Yields {Value : Type} (property : Value → Prop) (draw : Draw Value) : Prop :=
  ∀ generator, property (draw.run generator).1

namespace Yields

variable {Value Next Item : Type} {property : Value → Prop} {later : Next → Prop}

theorem pure {value : Value} (holds : property value) :
    Yields property (Pure.pure value : Draw Value) :=
  fun _ => holds

theorem bind {draw : Draw Value} {next : Value → Draw Next} (first : Yields property draw)
    (rest : ∀ value, property value → Yields later (next value)) : Yields later (draw >>= next) :=
  fun generator => rest _ (first generator) (draw.run generator).2

/-- Nothing need be known of a value that is drawn. -/
theorem bind_any {draw : Draw Value} {next : Value → Draw Next}
    (rest : ∀ value, Yields later (next value)) : Yields later (draw >>= next) :=
  fun generator => rest _ (draw.run generator).2

/-- What each round yields stands at its place. -/
theorem mapM {related : Item → Value → Prop} {draw : Item → Draw Value} {items : List Item}
    (each : ∀ item ∈ items, Yields (related item) (draw item)) :
    Yields (fun values => Matched (fun item value _ => related item value) items values values)
      (items.mapM draw) := by
  intro generator
  have beside (item : Item) (listed : item ∈ items) :
      Coupled (fun value _ => related item value) (draw item) (draw item) :=
    fun current => ⟨each item listed current, rfl⟩
  exact (Coupled.mapM beside generator).1

end Yields

/-! ## Numbers -/

theorem yields_firstAccepted {Value : Type} (accept : UInt64 → Option Value) (attempts : Nat) :
    Yields (fun found => ∀ value, found = some value → ∃ number, accept number = some value)
      (firstAccepted accept attempts) := by
  induction attempts with
  | zero => exact .pure fun _ missing => nomatch missing
  | succ attempts inductionHypothesis =>
      refine .bind_any fun number => ?_
      cases accepted : accept number with
      | none => exact inductionHypothesis
      | some value => exact .pure fun _ found => ⟨number, accepted.trans found⟩

/-- A number of 64 bits that is scaled to a count stays below the count. -/
theorem offsetOf_lt {count : Nat} (positive : 0 < count) {number : UInt64} {offset : Nat}
    (accepted : offsetOf count number = some offset) : offset < count := by
  have inRange : number.toNat < UInt64.size := number.toNat_lt
  dsimp only [offsetOf] at accepted
  split at accepted
  · cases accepted
  · cases accepted
    exact Nat.div_lt_of_lt_mul (Nat.mul_lt_mul_of_pos_right inRange positive)

theorem yields_below {count : Nat} (positive : 0 < count) : Yields (· < count) (below count) := by
  refine (yields_firstAccepted (offsetOf count) Generator.attempts).bind fun found accepted => ?_
  apply Yields.pure
  cases found with
  | none => exact positive
  | some offset =>
      obtain ⟨number, isOffset⟩ := accepted offset rfl
      exact offsetOf_lt positive isOffset

theorem yields_between {least greatest : Nat} (ordered : least ≤ greatest) :
    Yields (fun drawn => ∃ number, drawn = .ok number ∧ least ≤ number ∧ number ≤ greatest)
      (between least greatest) := by
  unfold between
  rw [if_neg (Nat.not_lt.mpr ordered)]
  split
  · rename_i full
    refine .bind_any fun number => ?_
    have inRange : number.toNat < UInt64.size := number.toNat_lt
    exact .pure ⟨_, rfl, by omega, by omega⟩
  · refine (yields_below (Nat.succ_pos (greatest - least))).bind fun offset inRange => ?_
    exact .pure ⟨_, rfl, by omega, by omega⟩

/-! ## Words -/

/-- A length from the range has been drawn. If there is room, the result is a word of this length
over the alphabet. -/
def WordDrawn (alphabetSize minLength maxLength : Nat) (drawn : Except DrawError Word) : Prop :=
  ∃ length, minLength ≤ length ∧ length ≤ maxLength ∧
    (length < wordCapacity → ∃ word, drawn = .ok word ∧ word.length = length ∧
      ∀ symbol ∈ word, symbol < alphabetSize) ∧
    (wordCapacity ≤ length → drawn = .error (.tooLong length))

/-- If every length in the range leaves room, a word is returned. -/
theorem WordDrawn.exists_word {alphabetSize minLength maxLength : Nat}
    {drawn : Except DrawError Word} (isDrawn : WordDrawn alphabetSize minLength maxLength drawn)
    (room : maxLength < wordCapacity) :
    ∃ word, drawn = .ok word ∧ minLength ≤ word.length ∧ word.length ≤ maxLength ∧
      ∀ symbol ∈ word, symbol < alphabetSize := by
  obtain ⟨length, atLeast, atMost, fits, _⟩ := isDrawn
  obtain ⟨word, returned, rfl, inRange⟩ := fits (Nat.lt_of_le_of_lt atMost room)
  exact ⟨word, returned, atLeast, atMost, inRange⟩

theorem yields_symbols {alphabetSize : Nat} (alphabetSize_pos : 0 < alphabetSize) (length : Nat) :
    Yields (fun word => word.length = length ∧ ∀ symbol ∈ word, symbol < alphabetSize)
      ((List.range length).mapM fun _ => below alphabetSize) := by
  intro generator
  have matched := Yields.mapM (fun place (_ : place ∈ List.range length) =>
    yields_below alphabetSize_pos) generator
  refine ⟨matched.length_left.trans List.length_range, fun symbol listed => ?_⟩
  obtain ⟨_, _, inRange⟩ := matched.exists_of_mem_left listed
  exact inRange

theorem yields_word {alphabetSize minLength maxLength : Nat} (alphabetSize_pos : 0 < alphabetSize)
    (ordered : minLength ≤ maxLength) :
    Yields (WordDrawn alphabetSize minLength maxLength)
      (word alphabetSize minLength maxLength) := by
  refine (yields_between ordered).bind fun drawn isLength => ?_
  obtain ⟨length, rfl, atLeast, atMost⟩ := isLength
  dsimp only
  by_cases tooLong : wordCapacity ≤ length
  · rw [if_pos tooLong]
    exact .pure ⟨length, atLeast, atMost, fun room => absurd tooLong (Nat.not_le.mpr room),
      fun _ => rfl⟩
  · rw [if_neg tooLong, if_neg fun empty => Nat.ne_of_gt alphabetSize_pos empty.2]
    refine (yields_symbols alphabetSize_pos length).bind fun word isWord => ?_
    exact .pure ⟨length, atLeast, atMost, fun _ => ⟨word, rfl, isWord⟩,
      fun full => absurd full tooLong⟩

/-! ## Automata -/

/-- What is drawn for each state stands at the index of the state. -/
theorem yields_states (size : Nat) {property : Nat → DrawnState → Prop}
    {draw : Nat → Draw DrawnState} (each : ∀ state, Yields (property state) (draw state)) :
    Yields (fun drawn => drawn.length = size ∧
        ∀ state values, drawn[state]? = some values → property state values)
      ((List.range size).mapM draw) := by
  intro generator
  have matched := Yields.mapM (fun state (_ : state ∈ List.range size) => each state) generator
  refine ⟨matched.length_left.trans List.length_range, fun state values found => ?_⟩
  have inside : state < (List.range size).length := by
    rw [← matched.length_left]
    exact (List.getElem?_eq_some_iff.mp found).1
  obtain ⟨item, other, _, isItem, isOther, _, holds⟩ := matched.getElem? inside
  rw [List.length_range] at inside
  rw [List.getElem?_range inside] at isItem
  rw [found] at isOther
  cases isItem
  cases isOther
  exact holds

theorem yields_fits (size alphabetSize : Nat) (density : Float) (state : Nat) :
    Yields (Fits size alphabetSize state) (drawState size alphabetSize density state) :=
  fun generator =>
    (coupled_drawState size alphabetSize (fun _ _ less => less) state generator).1.fits_few

section Complete

variable {size alphabetSize : Nat}

/-- Only state zero is initial, and there is one target in range for every symbol. -/
structure CompleteState (size alphabetSize state : Nat) (values : DrawnState) : Prop where
  isInitial_eq : values.isInitial = decide (state = 0)
  length_targets : values.targets.length = alphabetSize
  exists_target : ∀ targets ∈ values.targets, ∃ target, target < size ∧ targets = [target]

theorem CompleteState.fits {state : Nat} {values : DrawnState}
    (complete : CompleteState size alphabetSize state values) :
    Fits size alphabetSize state values where
  starts := fun first => by rw [complete.isInitial_eq, decide_eq_true first]
  length_targets := complete.length_targets
  target_lt := by
    intro targets listed target belongs
    obtain ⟨only, inside, rfl⟩ := complete.exists_target targets listed
    rwa [List.mem_singleton.mp belongs]

theorem yields_completeState (alphabetSize : Nat) (size_pos : 0 < size) (state : Nat) :
    Yields (CompleteState size alphabetSize state)
      (drawCompleteState size alphabetSize state) := by
  have target : Yields (fun targets => ∃ target, target < size ∧ targets = [target])
      (do return [← below size]) :=
    (yields_below size_pos).bind fun target inside => .pure ⟨target, inside, rfl⟩
  refine .bind_any fun isAccepting => ?_
  refine (Yields.mapM fun symbol (_ : symbol ∈ List.range alphabetSize) => target).bind
    fun targets matched => ?_
  refine .pure ⟨rfl, matched.length_left.trans List.length_range, fun entry listed => ?_⟩
  obtain ⟨_, _, isTarget⟩ := matched.exists_of_mem_left listed
  exact isTarget

section Draft

variable {drawn : List DrawnState} {automaton : Automaton}
  (isDraft : automaton.toDraft = draftOf alphabetSize drawn)
  (complete : ∀ state values, drawn[state]? = some values →
    CompleteState size alphabetSize state values)

include isDraft complete

theorem eq_zero_of_mem_initial {state : Nat} (isInitial : state ∈ automaton.initial) :
    state = 0 := by
  rw [isDraft] at isInitial
  obtain ⟨values, found, marked⟩ := mem_initial_draftOf_iff.mp isInitial
  rw [(complete state values found).isInitial_eq] at marked
  exact of_decide_eq_true marked

theorem unambiguous_of_completeStates : automaton.Unambiguous := by
  intro source symbol left right leftMoves rightMoves
  rw [isDraft] at leftMoves rightMoves
  obtain ⟨values, targets, found, listed, leftBelongs⟩ := mem_targets_draftOf_iff.mp leftMoves
  obtain ⟨others, more, otherFound, otherListed, rightBelongs⟩ :=
    mem_targets_draftOf_iff.mp rightMoves
  rw [found] at otherFound
  cases otherFound
  rw [listed] at otherListed
  cases otherListed
  obtain ⟨target, _, rfl⟩ :=
    (complete source values found).exists_target targets (List.mem_of_getElem? listed)
  rw [List.mem_singleton.mp leftBelongs, List.mem_singleton.mp rightBelongs]

theorem complete_of_completeStates : automaton.Complete := by
  intro source inside symbol inAlphabet
  rw [isDraft, draftOf, Draft.size_ofEdges] at inside
  rw [isDraft, draftOf, Draft.alphabetSize_ofEdges] at inAlphabet
  have found : drawn[source]? = some drawn[source] := List.getElem?_eq_getElem inside
  have isComplete := complete source _ found
  rw [← isComplete.length_targets] at inAlphabet
  obtain ⟨target, _, only⟩ := isComplete.exists_target _ (List.getElem_mem inAlphabet)
  refine StateSet.ne_empty_iff.mpr ⟨target, ?_⟩
  rw [isDraft]
  exact mem_targets_draftOf_iff.mpr ⟨_, _, found, List.getElem?_eq_getElem inAlphabet,
    only ▸ List.mem_singleton_self target⟩

end Draft

section Built

variable {drawn : List DrawnState} (size_pos : 0 < size) (alphabetSize_pos : 0 < alphabetSize)
  (length_eq : drawn.length = size)

include size_pos alphabetSize_pos length_eq

/-- The automaton is built from drawn states that fit. -/
theorem exists_automaton_of_fits
    (fits : ∀ state values, drawn[state]? = some values → Fits size alphabetSize state values) :
    ∃ automaton, build alphabetSize drawn = .ok automaton ∧
      automaton.toDraft = draftOf alphabetSize drawn ∧ automaton.size = size ∧
      automaton.alphabetSize = alphabetSize ∧ 0 ∈ automaton.initial := by
  obtain ⟨automaton, built, isDraft⟩ :=
    exists_build_eq_ok length_eq size_pos alphabetSize_pos fits
  refine ⟨automaton, built, isDraft, ?_, ?_, ?_⟩
  · rw [isDraft, draftOf, Draft.size_ofEdges, length_eq]
  · rw [isDraft, draftOf, Draft.alphabetSize_ofEdges]
  · subst length_eq
    have isFirst : drawn[0]? = some drawn[0] := List.getElem?_eq_getElem size_pos
    rw [isDraft, mem_initial_draftOf_iff]
    exact ⟨_, isFirst, (fits 0 _ isFirst).starts rfl⟩

/-- The automaton that is built starts in state zero and moves to one state on every symbol. -/
theorem exists_completeAutomaton
    (complete : ∀ state values, drawn[state]? = some values →
      CompleteState size alphabetSize state values) :
    ∃ automaton, build alphabetSize drawn = .ok automaton ∧ automaton.size = size ∧
      automaton.alphabetSize = alphabetSize ∧ automaton.initial = .singleton 0 ∧
      automaton.Unambiguous ∧ automaton.Complete := by
  obtain ⟨automaton, built, isDraft, size_eq, alphabetSize_eq, startsAtZero⟩ :=
    exists_automaton_of_fits size_pos alphabetSize_pos length_eq
      fun state values found => (complete state values found).fits
  refine ⟨automaton, built, size_eq, alphabetSize_eq, ?_,
    unambiguous_of_completeStates isDraft complete, complete_of_completeStates isDraft complete⟩
  ext state
  rw [StateSet.mem_singleton]
  exact ⟨eq_zero_of_mem_initial isDraft complete, fun isZero => isZero ▸ startsAtZero⟩

end Built

end Complete

/-! ## All that is drawn -/

/-- From every generator, automata are drawn with the given numbers of states and symbols and
with the initial state zero. A complete one starts there only, is deterministic and has a
transition for every state and symbol, and so it is after both minimizations, except that the
initial state is then the block of zero. Words are drawn from their ranges. -/
theorem drawn_values_wellFormed {size alphabetSize : Nat} (size_pos : 0 < size)
    (alphabetSize_pos : 0 < alphabetSize) (generator : Generator) :
    (∀ density, ∃ drawn after,
      (automaton size alphabetSize density).run generator = (.ok drawn, after) ∧
      drawn.size = size ∧ drawn.alphabetSize = alphabetSize ∧ 0 ∈ drawn.initial) ∧
    (∃ drawn after, (completeAutomaton size alphabetSize).run generator = (.ok drawn, after) ∧
      drawn.size = size ∧ drawn.alphabetSize = alphabetSize ∧ drawn.FullTable 0 ∧
      ∀ comparison, ∃ partition reduced, drawn.partitionBy comparison = .ok partition ∧
        drawn.minimizeBy comparison = .ok reduced ∧ reduced.alphabetSize = alphabetSize ∧
        reduced.FullTable (partition.indexOf 0)) ∧
    ∀ minLength maxLength, minLength ≤ maxLength →
      WordDrawn alphabetSize minLength maxLength
        ((word alphabetSize minLength maxLength).run generator).1 := by
  refine ⟨fun density => ?_, ?_, fun minLength maxLength ordered =>
    yields_word alphabetSize_pos ordered generator⟩
  · obtain ⟨length_eq, fits⟩ :=
      yields_states size (yields_fits size alphabetSize density) generator
    obtain ⟨drawn, built, _, isDrawn⟩ :=
      exists_automaton_of_fits size_pos alphabetSize_pos length_eq fits
    exact ⟨drawn, _, Prod.ext built rfl, isDrawn⟩
  · obtain ⟨length_eq, complete⟩ :=
      yields_states size (yields_completeState alphabetSize size_pos) generator
    obtain ⟨drawn, built, size_eq, alphabetSize_eq, initial_eq, unambiguous, isComplete⟩ :=
      exists_completeAutomaton size_pos alphabetSize_pos length_eq complete
    refine ⟨drawn, _, Prod.ext built rfl, size_eq, alphabetSize_eq,
      isComplete.fullTable initial_eq unambiguous, fun comparison => ?_⟩
    rw [← alphabetSize_eq]
    exact isComplete.exists_fullTable_of_minimizeBy initial_eq unambiguous comparison

/-- Eight states and three symbols make 24 transitions, and no word of up to five symbols is too
long. -/
theorem drawn_values_of_eight_states :
    0 < 8 ∧ 0 < 3 ∧
    (∃ drawn after, (automaton 8 3 0.4).run ⟨1⟩ = (.ok drawn, after) ∧ drawn.size = 8 ∧
      0 ∈ drawn.initial) ∧
    (∃ drawn after, (completeAutomaton 8 3).run ⟨1⟩ = (.ok drawn, after) ∧
      drawn.FullTable 0 ∧ drawn.transitionCount = 24 ∧
      ∃ partition reduced, drawn.partitionBy .classes = .ok partition ∧
        drawn.minimizeCanonical = .ok reduced ∧ reduced.FullTable (partition.indexOf 0)) ∧
    ∃ word, ((Random.word 3 2 5).run ⟨1⟩).1 = .ok word ∧ 2 ≤ word.length ∧ word.length ≤ 5 ∧
      ∀ symbol ∈ word, symbol < 3 := by
  have size_pos : 0 < 8 := by decide
  have alphabetSize_pos : 0 < 3 := by decide
  obtain ⟨automata, ⟨drawn, after, isDrawn, size_eq, alphabetSize_eq, table, minimized⟩, words⟩ :=
    drawn_values_wellFormed size_pos alphabetSize_pos ⟨1⟩
  obtain ⟨any, last, isAny, anySize, _, startsAtZero⟩ := automata 0.4
  obtain ⟨partition, reduced, partitions, reduces, _, reducedTable⟩ := minimized .classes
  refine ⟨size_pos, alphabetSize_pos, ⟨any, last, isAny, anySize, startsAtZero⟩,
    ⟨drawn, after, isDrawn, table, ?_, partition, reduced, partitions, reduces, reducedTable⟩,
    (words 2 5 (by decide)).exists_word (by decide)⟩
  rw [table.transitionCount_eq, size_eq, alphabetSize_eq]

/-- The initial state of a minimized automaton need not be zero, since accepting states come
first. A length that is drawn from all numbers of 64 bits leaves no room for the word. -/
theorem drawn_values_of_seed_one :
    (∃ drawn reduced canonical, ((completeAutomaton 2 1).run ⟨1⟩).1 = .ok drawn ∧
      drawn.minimize = .ok reduced ∧ reduced.initial = .singleton 1 ∧
      drawn.minimizeCanonical = .ok canonical ∧ canonical.initial = .singleton 1) ∧
    ((word 5 0 18446744073709551615).run ⟨1⟩).1 = .error (.tooLong 12120239713417281201) := by
  refine ⟨?_, rfl⟩
  have computed : (((completeAutomaton 2 1).run ⟨1⟩).1.toOption.bind fun drawn =>
      drawn.minimize.toOption.bind fun reduced => drawn.minimizeCanonical.toOption.map
        fun canonical => (reduced.initial, canonical.initial)) =
          some (.singleton 1, .singleton 1) := by
    decide +kernel
  obtain ⟨drawn, isDrawn, computed⟩ := Option.bind_eq_some_iff.mp computed
  obtain ⟨reduced, reduces, computed⟩ := Option.bind_eq_some_iff.mp computed
  obtain ⟨canonical, merges, initials⟩ := Option.map_eq_some_iff.mp computed
  obtain ⟨reducedInitial, canonicalInitial⟩ := Prod.mk.inj initials
  exact ⟨drawn, reduced, canonical, toOption_eq_some_iff.mp isDrawn,
    toOption_eq_some_iff.mp reduces, reducedInitial, toOption_eq_some_iff.mp merges,
    canonicalInitial⟩

end Acceptors.Random
