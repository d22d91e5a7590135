import Acceptors.Random.Sample

/-!
Contract: two draws beside each other, from one generator.

Owns: the relation between draws that take as many raw draws and give related values, its
passage through sequences and through the loops over lists, and the chances for two densities.
Does not own: what is built from the values.

A comparison with a density comes after the draw that it is about, so its outcome can change
what is kept and never what is drawn next.
-/

namespace Acceptors.Random

/-- From the same generator, the two draws give related values and leave the same generator. -/
def Coupled {Left Right : Type} (related : Left → Right → Prop) (left : Draw Left)
    (right : Draw Right) : Prop :=
  ∀ generator, related (left.run generator).1 (right.run generator).1 ∧
    (left.run generator).2 = (right.run generator).2

/-- Three lists of one length whose items at each place are related. -/
inductive Matched {Item Left Right : Type} (related : Item → Left → Right → Prop) :
    List Item → List Left → List Right → Prop where
  | nil : Matched related [] [] []
  | cons {item : Item} {left : Left} {right : Right} {items : List Item} {lefts : List Left}
      {rights : List Right} (heads : related item left right)
      (tails : Matched related items lefts rights) :
      Matched related (item :: items) (left :: lefts) (right :: rights)

namespace Matched

variable {Item Left Right : Type} {related : Item → Left → Right → Prop}
  {items : List Item} {lefts : List Left} {rights : List Right}

theorem length_left (all : Matched related items lefts rights) : lefts.length = items.length := by
  induction all with
  | nil => rfl
  | cons _ _ inductionHypothesis => exact congrArg (· + 1) inductionHypothesis

theorem length_right (all : Matched related items lefts rights) :
    rights.length = items.length := by
  induction all with
  | nil => rfl
  | cons _ _ inductionHypothesis => exact congrArg (· + 1) inductionHypothesis

theorem exists_of_mem_left (all : Matched related items lefts rights) {left : Left}
    (listed : left ∈ lefts) : ∃ item right, related item left right := by
  induction all with
  | nil => exact absurd listed List.not_mem_nil
  | cons heads _ inductionHypothesis =>
      rcases List.mem_cons.mp listed with rfl | later
      · exact ⟨_, _, heads⟩
      · exact inductionHypothesis later

theorem exists_of_mem_right (all : Matched related items lefts rights) {right : Right}
    (listed : right ∈ rights) : ∃ item left, related item left right := by
  induction all with
  | nil => exact absurd listed List.not_mem_nil
  | cons heads _ inductionHypothesis =>
      rcases List.mem_cons.mp listed with rfl | later
      · exact ⟨_, _, heads⟩
      · exact inductionHypothesis later

/-- At every place inside stand three related items. -/
theorem getElem? (all : Matched related items lefts rights) {place : Nat}
    (inside : place < items.length) :
    ∃ item left right, items[place]? = some item ∧ lefts[place]? = some left ∧
      rights[place]? = some right ∧ related item left right := by
  induction all generalizing place with
  | nil => exact absurd inside (Nat.not_lt_zero _)
  | @cons item left right items lefts rights heads _ inductionHypothesis =>
      cases place with
      | zero => exact ⟨item, left, right, rfl, rfl, rfl, heads⟩
      | succ place => exact inductionHypothesis (Nat.lt_of_succ_lt_succ inside)

end Matched

namespace Coupled

variable {Left Right NextLeft NextRight Item : Type}

theorem pure {related : Left → Right → Prop} {left : Left} {right : Right}
    (holds : related left right) :
    Coupled related (Pure.pure left : Draw Left) (Pure.pure right) :=
  fun _ => ⟨holds, rfl⟩

theorem bind {related : Left → Right → Prop} {nextRelated : NextLeft → NextRight → Prop}
    {left : Draw Left} {right : Draw Right} {nextLeft : Left → Draw NextLeft}
    {nextRight : Right → Draw NextRight} (first : Coupled related left right)
    (next : ∀ leftValue rightValue, related leftValue rightValue →
      Coupled nextRelated (nextLeft leftValue) (nextRight rightValue)) :
    Coupled nextRelated (left >>= nextLeft) (right >>= nextRight) := by
  intro generator
  obtain ⟨values, generators⟩ := first generator
  show nextRelated ((nextLeft _).run (left.run generator).2).1 ((nextRight _).run _).1 ∧
    ((nextLeft _).run (left.run generator).2).2 = ((nextRight _).run _).2
  rw [generators]
  exact next _ _ values _

theorem mono {related weaker : Left → Right → Prop} {left : Draw Left} {right : Draw Right}
    (coupled : Coupled related left right)
    (implies : ∀ leftValue rightValue, related leftValue rightValue → weaker leftValue rightValue) :
    Coupled weaker left right :=
  fun generator => ⟨implies _ _ (coupled generator).1, (coupled generator).2⟩

/-- A draw beside itself. -/
theorem refl (draw : Draw Left) : Coupled Eq draw draw :=
  fun _ => ⟨rfl, rfl⟩

theorem mapM {related : Item → Left → Right → Prop} {leftDraw : Item → Draw Left}
    {rightDraw : Item → Draw Right} {items : List Item}
    (each : ∀ item ∈ items, Coupled (related item) (leftDraw item) (rightDraw item)) :
    Coupled (Matched related items) (items.mapM leftDraw) (items.mapM rightDraw) := by
  induction items with
  | nil => exact pure .nil
  | cons head tail inductionHypothesis =>
      rw [List.mapM_cons, List.mapM_cons]
      refine bind (each head List.mem_cons_self) fun left right heads => ?_
      refine bind (inductionHypothesis fun item later => each item (List.mem_cons_of_mem _ later))
        fun lefts rights tails => ?_
      exact pure (.cons heads tails)

/-- What is kept on the left is kept on the right, where nothing is kept but the given items. -/
theorem filterM {leftTest rightTest : Item → Draw Bool} {items : List Item}
    (each : ∀ item, Coupled (fun left right => left = true → right = true) (leftTest item)
      (rightTest item)) :
    Coupled (fun lefts rights => lefts ⊆ rights ∧ rights ⊆ items) (items.filterM leftTest)
      (items.filterM rightTest) := by
  have collected (later kept others : List Item) (fewer : kept ⊆ others) :
      Coupled (fun lefts rights => lefts ⊆ rights ∧ rights ⊆ others ++ later)
        (later.filterAuxM leftTest kept) (later.filterAuxM rightTest others) := by
    induction later generalizing kept others with
    | nil => exact pure ⟨fewer, List.subset_append_left others []⟩
    | cons head tail inductionHypothesis =>
        refine bind (each head) fun left right implies => ?_
        have stillFewer : cond left (head :: kept) kept ⊆ cond right (head :: others) others := by
          cases left <;> cases right
          · exact fewer
          · exact List.subset_cons_of_subset head fewer
          · exact absurd (implies rfl) Bool.false_ne_true
          · exact List.cons_subset_cons head fewer
        refine (inductionHypothesis _ _ stillFewer).mono fun lefts rights ⟨inside, bound⟩ => ?_
        refine ⟨inside, fun item listed => ?_⟩
        have headOnly : cond right (head :: others) others ⊆ head :: others := by
          cases right
          · exact List.subset_cons_self head others
          · exact List.Subset.refl _
        rcases List.mem_append.mp (bound listed) with isKept | isLater
        · rcases List.mem_cons.mp (headOnly isKept) with rfl | earlier
          · exact List.mem_append_right others List.mem_cons_self
          · exact List.mem_append_left _ earlier
        · exact List.mem_append_right others (List.mem_cons_of_mem head isLater)
  refine bind (collected items [] [] (List.Subset.refl [])) fun lefts rights ⟨inside, bound⟩ => ?_
  refine pure ⟨fun item listed => ?_, fun item listed => bound (List.mem_reverse.mp listed)⟩
  exact List.mem_reverse.mpr (inside (List.mem_reverse.mp listed))

end Coupled

/-! ## Chances for two densities -/

/-- A fraction that some generator draws. -/
def Drawable (fraction : Float) : Prop :=
  ∃ generator : Generator,
    ((firstAccepted fractionOf Generator.attempts).run generator).1 = some fraction

/-- A drawn fraction is below the one density if it is below the other. -/
theorem coupled_chance {sparse dense : Float}
    (below : ∀ fraction, Drawable fraction → fraction < sparse → fraction < dense) :
    Coupled (fun left right => left = true → right = true) (chance sparse) (chance dense) := by
  have same : Coupled (fun left right => left = right ∧ ∀ fraction ∈ left, Drawable fraction)
      (firstAccepted fractionOf Generator.attempts)
      (firstAccepted fractionOf Generator.attempts) :=
    fun generator => ⟨⟨rfl, fun _ drawn => ⟨generator, drawn⟩⟩, rfl⟩
  refine same.bind fun left right ⟨equal, drawable⟩ => Coupled.pure ?_
  simp only [← equal, Option.any_eq_true, decide_eq_true_eq]
  intro ⟨fraction, drawn, less⟩
  exact ⟨fraction, drawn, below fraction (drawable fraction drawn) less⟩

end Acceptors.Random
