import Acceptors.Proofs.Coupling
import Acceptors.Proofs.Simulation

/-!
Contract: random automata of two densities from one generator.

Owns: the parts of the draft of drawn states, the conditions under which it is valid, the
states that are drawn with two densities, and what the smaller automaton accepts.
Does not own: the relation between draws, and the values of the generator.

With the greater density a step is kept wherever it is kept with the smaller one, and the coins
fall alike. So the one automaton is a part of the other, on the same states and with the same
accepting states, and every run in it is a run in the other.
-/

namespace Acceptors

namespace Automaton

/-! ## Automata with fewer steps -/

/-- What the one automaton has the other one has, too. -/
structure PartOf (few many : Automaton) : Prop where
  initial : ∀ state ∈ few.initial, state ∈ many.initial
  accepting : ∀ state ∈ few.accepting, state ∈ many.accepting
  targets : ∀ source symbol, ∀ target ∈ few.targets source symbol,
    target ∈ many.targets source symbol

variable {few many : Automaton}

theorem PartOf.run (part : few.PartOf many) {first last : Nat} {word : Word}
    (run : few.Run first word last) : many.Run first word last := by
  induction run with
  | done state => exact .done state
  | step moves _ inductionHypothesis => exact .step (part.targets _ _ _ moves) inductionHypothesis

theorem PartOf.acceptsWith (part : few.PartOf many) {strategy : Strategy} {word : Word}
    (accepted : few.acceptsWith strategy word = true) : many.acceptsWith strategy word = true := by
  obtain ⟨first, isInitial, last, isAccepting, run⟩ := acceptsWith_eq_true_iff.mp accepted
  exact acceptsWith_eq_true_iff.mpr
    ⟨first, part.initial first isInitial, last, part.accepting last isAccepting, part.run run⟩

end Automaton

namespace Random

/-! ## The draft of drawn states -/

section Drawn

variable {alphabetSize : Nat} {drawn : List DrawnState}

theorem mem_marked_iff {mark : DrawnState → Bool} {state : Nat} :
    state ∈ StateSet.ofList ((drawn.zipIdx.filter fun entry => mark entry.1).map Prod.snd) ↔
      ∃ values, drawn[state]? = some values ∧ mark values = true := by
  simp [List.mem_zipIdx_iff_getElem?]

theorem mem_initial_draftOf_iff {state : Nat} :
    state ∈ (draftOf alphabetSize drawn).initial ↔
      ∃ values, drawn[state]? = some values ∧ values.isInitial = true := by
  rw [draftOf, Draft.initial_ofEdges, mem_marked_iff]

theorem mem_accepting_draftOf_iff {state : Nat} :
    state ∈ (draftOf alphabetSize drawn).accepting ↔
      ∃ values, drawn[state]? = some values ∧ values.isAccepting = true := by
  rw [draftOf, Draft.accepting_ofEdges, mem_marked_iff]

theorem mem_targets_draftOf_iff {source symbol target : Nat} :
    target ∈ (draftOf alphabetSize drawn).targets source symbol ↔
      ∃ values targets, drawn[source]? = some values ∧ values.targets[symbol]? = some targets ∧
        target ∈ targets := by
  rw [draftOf, Draft.mem_targets_ofEdges]
  simp only [List.mem_flatMap, List.mem_map, Prod.exists, List.mem_zipIdx_iff_getElem?,
    Edge.mk.injEq]
  constructor
  · rintro ⟨values, _, found, targets, _, listed, _, belongs, rfl, rfl, rfl⟩
    exact ⟨values, targets, found, listed, belongs⟩
  · intro ⟨values, targets, found, listed, belongs⟩
    exact ⟨values, source, found, targets, symbol, listed, target, belongs, rfl, rfl, rfl⟩

/-- State zero is initial, and there are targets in range for every symbol. -/
structure Fits (size alphabetSize state : Nat) (values : DrawnState) : Prop where
  starts : state = 0 → values.isInitial = true
  length_targets : values.targets.length = alphabetSize
  target_lt : ∀ targets ∈ values.targets, ∀ target ∈ targets, target < size

section Fitting

variable {size : Nat} (length_eq : drawn.length = size) (size_pos : 0 < size)
  (alphabetSize_pos : 0 < alphabetSize)
  (fits : ∀ state values, drawn[state]? = some values → Fits size alphabetSize state values)

include length_eq size_pos alphabetSize_pos fits

theorem valid_draftOf : (draftOf alphabetSize drawn).Valid := by
  subst length_eq
  have marked_lt (mark : DrawnState → Bool) : ∀ state ∈ StateSet.ofList
      ((drawn.zipIdx.filter fun entry => mark entry.1).map Prod.snd), state < drawn.length := by
    intro state marked
    obtain ⟨values, found, _⟩ := mem_marked_iff.mp marked
    exact (List.getElem?_eq_some_iff.mp found).1
  have isFirst : drawn[0]? = some drawn[0] := List.getElem?_eq_getElem size_pos
  have initial_nonempty : (draftOf alphabetSize drawn).initial ≠ ∅ :=
    StateSet.ne_empty_iff.mpr
      ⟨0, mem_initial_draftOf_iff.mpr ⟨_, isFirst, (fits 0 _ isFirst).starts rfl⟩⟩
  rw [draftOf, Draft.initial_ofEdges] at initial_nonempty
  refine Draft.valid_ofEdges size_pos alphabetSize_pos initial_nonempty
    (marked_lt DrawnState.isInitial) (marked_lt DrawnState.isAccepting) ?_
  intro edge listed
  have moves : edge.target ∈ (draftOf alphabetSize drawn).targets edge.source edge.symbol :=
    Draft.mem_targets_ofEdges.mpr listed
  obtain ⟨values, targets, found, isTargets, belongs⟩ := mem_targets_draftOf_iff.mp moves
  have valuesFit := fits edge.source values found
  refine ⟨(List.getElem?_eq_some_iff.mp found).1, ?_,
    valuesFit.target_lt targets (List.mem_of_getElem? isTargets) edge.target belongs⟩
  rw [← valuesFit.length_targets]
  exact (List.getElem?_eq_some_iff.mp isTargets).1

/-- What fits is built as it was drawn. -/
theorem exists_build_eq_ok : ∃ automaton, build alphabetSize drawn = .ok automaton ∧
    automaton.toDraft = draftOf alphabetSize drawn := by
  have valid := valid_draftOf length_eq size_pos alphabetSize_pos fits
  refine ⟨⟨_, valid⟩, ?_, rfl⟩
  rw [build, Draft.build_eq_ok valid]
  rfl

end Fitting

end Drawn

/-! ## States of two densities -/

/-- Whether a state is initial is drawn in one of two ways, and the rest in the same way. -/
theorem drawState_eq (size alphabetSize : Nat) (density : Float) (state : Nat) :
    drawState size alphabetSize density state =
      (if state = 0 then pure true else chance density) >>= fun isInitial =>
        coin >>= fun isAccepting =>
          ((List.range alphabetSize).mapM fun _ =>
            (List.range size).filterM fun _ => chance density) >>= fun targets =>
              pure ⟨isInitial, isAccepting, targets⟩ := by
  unfold drawState
  split <;> rfl

/-- A state with the smaller density beside the same state with the greater one. -/
structure Thinner (size alphabetSize state : Nat) (few many : DrawnState) : Prop where
  isAccepting_eq : few.isAccepting = many.isAccepting
  isInitial : few.isInitial = true → many.isInitial = true
  starts : state = 0 → few.isInitial = true
  targets : Matched (fun _ fewer more => fewer ⊆ more ∧ more ⊆ List.range size)
    (List.range alphabetSize) few.targets many.targets

section Thinner

variable {size alphabetSize state : Nat} {few many : DrawnState}

theorem Thinner.fits_few (thinner : Thinner size alphabetSize state few many) :
    Fits size alphabetSize state few where
  starts := thinner.starts
  length_targets := by
    rw [thinner.targets.length_left, List.length_range]
  target_lt := by
    intro fewer listed target belongs
    obtain ⟨_, more, inside, bound⟩ := thinner.targets.exists_of_mem_left listed
    exact List.mem_range.mp (bound (inside belongs))

theorem Thinner.fits_many (thinner : Thinner size alphabetSize state few many) :
    Fits size alphabetSize state many where
  starts := fun first => thinner.isInitial (thinner.starts first)
  length_targets := by
    rw [thinner.targets.length_right, List.length_range]
  target_lt := by
    intro more listed target belongs
    obtain ⟨_, fewer, _, bound⟩ := thinner.targets.exists_of_mem_right listed
    exact List.mem_range.mp (bound belongs)

/-- The targets on a symbol are among the targets with the greater density. -/
theorem Thinner.exists_targets (thinner : Thinner size alphabetSize state few many) {symbol : Nat}
    {fewer : List Nat} (found : few.targets[symbol]? = some fewer) :
    ∃ more, many.targets[symbol]? = some more ∧ fewer ⊆ more := by
  have inside : symbol < (List.range alphabetSize).length := by
    rw [← thinner.targets.length_left]
    exact (List.getElem?_eq_some_iff.mp found).1
  obtain ⟨_, left, more, _, isLeft, isMore, included, _⟩ := thinner.targets.getElem? inside
  rw [found] at isLeft
  exact ⟨more, isMore, Option.some.inj isLeft ▸ included⟩

end Thinner

section

variable (size alphabetSize : Nat) {sparse dense : Float}
  (below : ∀ fraction, Drawable fraction → fraction < sparse → fraction < dense)

include below

theorem coupled_drawState (state : Nat) :
    Coupled (Thinner size alphabetSize state) (drawState size alphabetSize sparse state)
      (drawState size alphabetSize dense state) := by
  have initial : Coupled
      (fun left right => (left = true → right = true) ∧ (state = 0 → left = true))
      (if state = 0 then pure true else chance sparse)
      (if state = 0 then pure true else chance dense) := by
    by_cases first : state = 0
    · rw [if_pos first, if_pos first]
      exact .pure ⟨id, fun _ => rfl⟩
    · rw [if_neg first, if_neg first]
      exact (coupled_chance below).mono fun _ _ implies =>
        ⟨implies, fun isFirst => absurd isFirst first⟩
  have targets : Coupled
      (Matched (fun _ fewer more => fewer ⊆ more ∧ more ⊆ List.range size)
        (List.range alphabetSize))
      ((List.range alphabetSize).mapM fun _ => (List.range size).filterM fun _ => chance sparse)
      ((List.range alphabetSize).mapM fun _ => (List.range size).filterM fun _ => chance dense) :=
    .mapM fun _ _ => .filterM fun _ => coupled_chance below
  rw [drawState_eq, drawState_eq]
  refine initial.bind fun _ _ ⟨implies, starts⟩ => ?_
  refine (Coupled.refl coin).bind fun _ _ same => ?_
  exact targets.bind fun _ _ matched => .pure ⟨same, implies, starts, matched⟩

theorem coupled_drawnStates :
    Coupled (Matched (Thinner size alphabetSize) (List.range size))
      ((List.range size).mapM (drawState size alphabetSize sparse))
      ((List.range size).mapM (drawState size alphabetSize dense)) :=
  .mapM fun state _ => coupled_drawState size alphabetSize below state

end

/-! ## Automata of two densities -/

section Matched

variable {size alphabetSize : Nat} {few many : List DrawnState}
  (matched : Matched (Thinner size alphabetSize) (List.range size) few many)

include matched

theorem length_few : few.length = size := by
  rw [matched.length_left, List.length_range]

theorem length_many : many.length = size := by
  rw [matched.length_right, List.length_range]

theorem exists_thinner {state : Nat} (inside : state < size) :
    ∃ left right, few[state]? = some left ∧ many[state]? = some right ∧
      Thinner size alphabetSize state left right := by
  have listed : state < (List.range size).length := by rwa [List.length_range]
  obtain ⟨item, left, right, isItem, isLeft, isRight, thinner⟩ := matched.getElem? listed
  rw [List.getElem?_range inside, Option.some.injEq] at isItem
  exact ⟨left, right, isLeft, isRight, isItem ▸ thinner⟩

/-- A state of the one list has a fuller state at its place in the other. -/
theorem exists_many {state : Nat} {left : DrawnState} (found : few[state]? = some left) :
    ∃ right, many[state]? = some right ∧ Thinner size alphabetSize state left right := by
  have inside : state < size := length_few matched ▸ (List.getElem?_eq_some_iff.mp found).1
  obtain ⟨other, right, isOther, isRight, thinner⟩ := exists_thinner matched inside
  rw [found] at isOther
  exact ⟨right, isRight, Option.some.inj isOther ▸ thinner⟩

theorem exists_few {state : Nat} {right : DrawnState} (found : many[state]? = some right) :
    ∃ left, few[state]? = some left ∧ Thinner size alphabetSize state left right := by
  have inside : state < size := length_many matched ▸ (List.getElem?_eq_some_iff.mp found).1
  obtain ⟨left, other, isLeft, isOther, thinner⟩ := exists_thinner matched inside
  rw [found] at isOther
  exact ⟨left, isLeft, Option.some.inj isOther ▸ thinner⟩

theorem accepting_eq :
    (draftOf alphabetSize few).accepting = (draftOf alphabetSize many).accepting := by
  ext state
  rw [mem_accepting_draftOf_iff, mem_accepting_draftOf_iff]
  constructor
  · intro ⟨left, found, accepts⟩
    obtain ⟨right, isRight, thinner⟩ := exists_many matched found
    exact ⟨right, isRight, thinner.isAccepting_eq ▸ accepts⟩
  · intro ⟨right, found, accepts⟩
    obtain ⟨left, isLeft, thinner⟩ := exists_few matched found
    exact ⟨left, isLeft, thinner.isAccepting_eq ▸ accepts⟩

theorem mem_initial_many {state : Nat}
    (isInitial : state ∈ (draftOf alphabetSize few).initial) :
    state ∈ (draftOf alphabetSize many).initial := by
  obtain ⟨left, found, starts⟩ := mem_initial_draftOf_iff.mp isInitial
  obtain ⟨right, isRight, thinner⟩ := exists_many matched found
  exact mem_initial_draftOf_iff.mpr ⟨right, isRight, thinner.isInitial starts⟩

theorem mem_targets_many {source symbol target : Nat}
    (moves : target ∈ (draftOf alphabetSize few).targets source symbol) :
    target ∈ (draftOf alphabetSize many).targets source symbol := by
  obtain ⟨left, fewer, found, isFewer, belongs⟩ := mem_targets_draftOf_iff.mp moves
  obtain ⟨right, isRight, thinner⟩ := exists_many matched found
  obtain ⟨more, isMore, included⟩ := thinner.exists_targets isFewer
  exact mem_targets_draftOf_iff.mpr ⟨right, more, isRight, isMore, included belongs⟩

end Matched

/-- With a greater density the same draws give an automaton on the same states, with the same
accepting states, that has all initial states and all steps of the other. It accepts what the
other accepts, and the generator has gone as far. -/
theorem automaton_of_densities {size alphabetSize : Nat} (size_pos : 0 < size)
    (alphabetSize_pos : 0 < alphabetSize) {sparse dense : Float}
    (below : ∀ fraction, Drawable fraction → fraction < sparse → fraction < dense)
    (generator : Generator) :
    ∃ few many after,
      (automaton size alphabetSize sparse).run generator = (.ok few, after) ∧
      (automaton size alphabetSize dense).run generator = (.ok many, after) ∧
      few.accepting = many.accepting ∧
      (∀ state ∈ few.initial, state ∈ many.initial) ∧
      (∀ source symbol, ∀ target ∈ few.targets source symbol,
        target ∈ many.targets source symbol) ∧
      ∀ strategy word, few.acceptsWith strategy word = true →
        many.acceptsWith strategy word = true := by
  obtain ⟨matched, same⟩ := coupled_drawnStates size alphabetSize below generator
  obtain ⟨few, fewBuilt, isFew⟩ := exists_build_eq_ok (length_few matched) size_pos alphabetSize_pos
    fun _ _ found => (exists_many matched found).elim fun _ ⟨_, thinner⟩ => thinner.fits_few
  obtain ⟨many, manyBuilt, isMany⟩ := exists_build_eq_ok (length_many matched) size_pos
    alphabetSize_pos
    fun _ _ found => (exists_few matched found).elim fun _ ⟨_, thinner⟩ => thinner.fits_many
  have accepting : few.accepting = many.accepting := by
    rw [isFew, isMany]
    exact accepting_eq matched
  have initial : ∀ state ∈ few.initial, state ∈ many.initial := by
    rw [isFew, isMany]
    exact fun _ => mem_initial_many matched
  have targets : ∀ source symbol, ∀ target ∈ few.targets source symbol,
      target ∈ many.targets source symbol := by
    rw [isFew, isMany]
    exact fun _ _ _ => mem_targets_many matched
  have part : few.PartOf many := ⟨initial, fun _ accepts => accepting ▸ accepts, targets⟩
  refine ⟨few, many, _, Prod.ext fewBuilt rfl, Prod.ext manyBuilt same.symm, accepting, initial,
    targets, fun _ _ => part.acceptsWith⟩

/-! ## Densities in order -/

open Float.Model in
/-- Numbers of different kinds compare by their kinds. Those of one kind have a sign in common
and compare by exponent and then by mantissa. -/
theorem compare_unpacked_trans {first second third : UnpackedFloat}
    (lower : first.compare second = some .lt) (upper : second.compare third = some .lt) :
    first.compare third = some .lt := by
  have signs : compare UnpackedFloat.Sign.negative UnpackedFloat.Sign.positive = .lt := rfl
  rcases first with (_ | _) | _ | _ | ⟨_ | _, _, _, _⟩ <;>
    rcases second with (_ | _) | _ | _ | ⟨_ | _, _, _, _⟩ <;>
    rcases third with (_ | _) | _ | _ | ⟨_ | _, _, _, _⟩ <;>
    dsimp only [UnpackedFloat.compare] at lower upper ⊢ <;>
    simp [signs, Ordering.then_eq_lt, Ordering.swap_then, Nat.compare_eq_lt, Nat.compare_eq_gt,
      Int.compare_eq_lt, Int.compare_eq_gt] at lower upper ⊢ <;>
    omega

theorem float_lt_trans {first second third : Float} (lower : first < second)
    (upper : second < third) : first < third := by
  have unpacked {left right : Float} : left < right ↔
      left.toModel.unpack.compare right.toModel.unpack = some .lt := by
    simp [LT.lt, Float.lt, Float.Model.lt, Float.Model.UnpackedFloat.lt]
  rw [unpacked] at *
  exact compare_unpacked_trans lower upper

/-- A quarter and a half are in order, so all fractions below the one are below the other. -/
theorem automaton_of_quarter_and_half :
    (∀ fraction, Drawable fraction → fraction < 0.25 → fraction < 0.5) ∧
      ∃ few many after,
        (automaton 5 2 0.25).run ⟨7⟩ = (.ok few, after) ∧
        (automaton 5 2 0.5).run ⟨7⟩ = (.ok many, after) ∧
        few.accepting = many.accepting ∧
        (∀ state ∈ few.initial, state ∈ many.initial) ∧
        (∀ source symbol, ∀ target ∈ few.targets source symbol,
          target ∈ many.targets source symbol) ∧
        ∀ strategy word, few.acceptsWith strategy word = true →
          many.acceptsWith strategy word = true := by
  have inOrder : (0.25 : Float) < 0.5 := by decide
  have below : ∀ fraction, Drawable fraction → fraction < 0.25 → fraction < 0.5 :=
    fun _ _ less => float_lt_trans less inOrder
  exact ⟨below, automaton_of_densities (by decide) (by decide) below ⟨7⟩⟩

end Random

end Acceptors
