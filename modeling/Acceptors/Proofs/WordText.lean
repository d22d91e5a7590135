import Acceptors.Proofs.NumberLines
import Acceptors.Proofs.Spelling

/-!
Contract: which words can be told apart by their texts.

Owns: the symbols that the text of a symbol can stand for, the text of one symbol at the front
of a longer text, and the words that have equal texts.
Does not own: the decoding of texts.

Symbols are written without anything between them, so a text is taken apart from its front: a
symbol is one character, or an opening bracket with all that follows up to the closing one.
Which of the two it is depends on the narrowed symbol. A symbol past the radix that is narrowed
below it is written as the character of another symbol.
-/

namespace Acceptors

namespace Word

/-! ## Symbols -/

/-- The least symbol with the same text. -/
def shown (symbol : Nat) : Nat :=
  if symbol % narrowing < radix then symbol % narrowing else symbol

/-- A symbol without a character of its own does not get one by narrowing. -/
def Legible (symbol : Nat) : Prop := radix ≤ symbol → radix ≤ symbol % narrowing

variable {symbol left right : Nat}

theorem shown_eq_self_iff : shown symbol = symbol ↔ Legible symbol := by
  unfold shown Legible
  split
  · rename_i narrow
    constructor
    · intro same past
      omega
    · intro legible
      exact mod_narrowing_of_lt (by omega)
  · rename_i wide
    exact iff_of_true rfl fun _ => Nat.le_of_not_lt wide

theorem renderSymbol_of_narrow (narrow : symbol % narrowing < radix) :
    renderSymbol symbol = String.singleton (character (shown symbol)) := by
  rw [renderSymbol, shown, if_pos narrow, if_pos narrow]

theorem renderSymbol_of_wide (wide : radix ≤ symbol % narrowing) :
    renderSymbol symbol = "<" ++ Text.Numeral.render symbol ++ ">" := by
  rw [renderSymbol, if_neg (Nat.not_lt.mpr wide)]
  rfl

theorem renderSymbol_shown (symbol : Nat) : renderSymbol (shown symbol) = renderSymbol symbol := by
  by_cases narrow : symbol % narrowing < radix
  · have shown_eq : shown symbol = symbol % narrowing := if_pos narrow
    rw [renderSymbol_of_narrow narrow, shown_eq, renderSymbol_of_lt narrow]
  · rw [shown, if_neg narrow]

/-! ## One symbol in front of a text -/

/-- Two texts up to their first mark. -/
theorem eq_of_append_cons_eq {mark : Char} {before others behind more : List Char}
    (notBefore : mark ∉ before) (notOthers : mark ∉ others)
    (same : before ++ mark :: behind = others ++ mark :: more) :
    before = others ∧ behind = more := by
  induction before generalizing others with
  | nil =>
      cases others with
      | nil => exact ⟨rfl, (List.cons.inj same).2⟩
      | cons first rest => exact absurd ((List.cons.inj same).1 ▸ List.mem_cons_self) notOthers
  | cons head tail inductionHypothesis =>
      cases others with
      | nil => exact absurd ((List.cons.inj same).1 ▸ List.mem_cons_self) notBefore
      | cons first rest =>
          obtain ⟨rfl, rest_eq⟩ := List.cons.inj same
          rw [List.mem_cons, not_or] at notBefore notOthers
          obtain ⟨rfl, behind_eq⟩ := inductionHypothesis notBefore.2 notOthers.2 rest_eq
          exact ⟨rfl, behind_eq⟩

theorem toList_renderSymbol_of_narrow (narrow : symbol % narrowing < radix) :
    (renderSymbol symbol).toList = [character (shown symbol)] := by
  rw [renderSymbol_of_narrow narrow, String.toList_singleton]

theorem toList_renderSymbol_of_wide (wide : radix ≤ symbol % narrowing) :
    (renderSymbol symbol).toList = '<' :: Text.Numeral.renderChars symbol ++ ['>'] := by
  rw [renderSymbol_of_wide wide, String.toList_append, String.toList_append,
    Text.Numeral.toList_render]
  rfl

theorem shown_lt_of_narrow (narrow : symbol % narrowing < radix) : shown symbol < radix := by
  rw [shown, if_pos narrow]
  exact narrow

/-- No symbol is written as the opening bracket. -/
theorem character_ne_bracket (below : symbol < radix) : character symbol ≠ '<' := by
  intro same
  have denotes := symbol?_character below
  have denotesNone : symbol? '<' = none := by decide
  rw [same, denotesNone] at denotes
  cases denotes

theorem character_injective (leftBelow : left < radix) (rightBelow : right < radix)
    (same : character left = character right) : left = right := by
  have denotes := symbol?_character leftBelow
  rw [same, symbol?_character rightBelow] at denotes
  exact (Option.some.inj denotes).symm

theorem bracket_not_mem_renderChars (number : Nat) : '>' ∉ Text.Numeral.renderChars number := by
  intro listed
  exact absurd (Text.Numeral.isDigit_of_mem_renderChars listed) (by decide)

/-- The front of a text tells which symbol it shows and where the next one begins. -/
theorem shown_eq_of_append_eq {behind more : List Char}
    (same : (renderSymbol left).toList ++ behind = (renderSymbol right).toList ++ more) :
    shown left = shown right ∧ behind = more := by
  rcases Nat.lt_or_ge (left % narrowing) radix with leftNarrow | leftWide
  · have leftBelow := shown_lt_of_narrow leftNarrow
    rw [toList_renderSymbol_of_narrow leftNarrow] at same
    rcases Nat.lt_or_ge (right % narrowing) radix with rightNarrow | rightWide
    · rw [toList_renderSymbol_of_narrow rightNarrow] at same
      obtain ⟨character_eq, behind_eq⟩ := List.cons.inj same
      have rightBelow := shown_lt_of_narrow rightNarrow
      exact ⟨character_injective leftBelow rightBelow character_eq, behind_eq⟩
    -- A character against a bracket: the texts differ at once.
    · rw [toList_renderSymbol_of_wide rightWide] at same
      exact absurd (List.cons.inj same).1 (character_ne_bracket leftBelow)
  · rw [toList_renderSymbol_of_wide leftWide] at same
    rcases Nat.lt_or_ge (right % narrowing) radix with rightNarrow | rightWide
    · rw [toList_renderSymbol_of_narrow rightNarrow] at same
      have rightBelow := shown_lt_of_narrow rightNarrow
      exact absurd (List.cons.inj same).1.symm (character_ne_bracket rightBelow)
    -- Two numbers in brackets: digits are no brackets, so both numbers end at the first one.
    · rw [toList_renderSymbol_of_wide rightWide, List.cons_append, List.cons_append,
        List.append_assoc, List.append_assoc] at same
      obtain ⟨digits_eq, behind_eq⟩ := eq_of_append_cons_eq (bracket_not_mem_renderChars left)
        (bracket_not_mem_renderChars right) (List.cons.inj same).2
      have number_eq : left = right := by
        apply Text.Numeral.render_injective
        rw [← String.toList_inj, Text.Numeral.toList_render, Text.Numeral.toList_render, digits_eq]
      exact ⟨congrArg shown number_eq, behind_eq⟩

/-! ## Texts of words -/

theorem toList_renderSymbol_ne_nil (symbol : Nat) : (renderSymbol symbol).toList ≠ [] := by
  rcases Nat.lt_or_ge (symbol % narrowing) radix with narrow | wide
  · rw [toList_renderSymbol_of_narrow narrow]
    exact List.cons_ne_nil _ _
  · rw [toList_renderSymbol_of_wide wide]
    exact List.cons_ne_nil _ _

theorem map_shown_eq_of_flatMap_eq {left right : Word}
    (same : left.flatMap (fun symbol => (renderSymbol symbol).toList) =
      right.flatMap fun symbol => (renderSymbol symbol).toList) :
    left.map shown = right.map shown := by
  induction left generalizing right with
  | nil =>
      cases right with
      | nil => rfl
      | cons symbol rest =>
          rw [List.flatMap_cons, List.flatMap_nil] at same
          exact absurd (List.append_eq_nil_iff.mp same.symm).1 (toList_renderSymbol_ne_nil symbol)
  | cons head tail inductionHypothesis =>
      cases right with
      | nil =>
          rw [List.flatMap_cons, List.flatMap_nil] at same
          exact absurd (List.append_eq_nil_iff.mp same).1 (toList_renderSymbol_ne_nil head)
      | cons symbol rest =>
          rw [List.flatMap_cons, List.flatMap_cons] at same
          obtain ⟨shown_eq, rest_eq⟩ := shown_eq_of_append_eq same
          rw [List.map_cons, List.map_cons, shown_eq, inductionHypothesis rest_eq]

theorem render_eq_iff {left right : Word} :
    render left = render right ↔ left.map shown = right.map shown := by
  constructor
  · intro same
    have joined := congrArg unquoted same
    rw [unquoted_render, unquoted_render, ← String.toList_inj, String.toList_join,
      String.toList_join, List.flatMap_map, List.flatMap_map] at joined
    exact map_shown_eq_of_flatMap_eq joined
  · intro same
    have pieces (word : Word) : word.map renderSymbol = (word.map shown).map renderSymbol := by
      rw [List.map_map]
      exact List.map_congr_left fun symbol _ => (renderSymbol_shown symbol).symm
    rw [render, render, pieces left, pieces right, same]

theorem map_shown_of_legible {word : Word} (legible : ∀ symbol ∈ word, Legible symbol) :
    word.map shown = word := by
  have same : word.map shown = word.map id :=
    List.map_congr_left fun symbol listed => shown_eq_self_iff.mpr (legible symbol listed)
  rw [same, List.map_id]

/-- Words have equal texts when they show the same symbols. Different words of legible symbols
have different texts, in which a symbol below the radix is one character and any other stands in
brackets. -/
theorem render_distinguishes (left right : Word) :
    (render left = render right ↔ left.map shown = right.map shown) ∧
      ((∀ symbol ∈ left ++ right, Legible symbol) → left ≠ right → render left ≠ render right) ∧
      ∀ symbol, Legible symbol → renderSymbol symbol =
        if symbol < radix then String.singleton (character symbol)
        else "<" ++ toString symbol ++ ">" := by
  refine ⟨render_eq_iff, fun legible different same => ?_, fun symbol legible => ?_⟩
  · have shown_eq := render_eq_iff.mp same
    rw [map_shown_of_legible fun symbol listed => legible symbol (List.mem_append_left _ listed),
      map_shown_of_legible fun symbol listed => legible symbol (List.mem_append_right _ listed)]
      at shown_eq
    exact different shown_eq
  · split
    · rename_i below
      exact renderSymbol_of_lt below
    · rename_i past
      exact renderSymbol_of_wide (legible (Nat.le_of_not_lt past))

/-- Brackets tell one large symbol from two small ones. -/
theorem render_forty_distinguished :
    (∀ symbol ∈ [1, 40] ++ [1, 4, 0], Legible symbol) ∧ [1, 40] ≠ [1, 4, 0] ∧
      render [1, 40] ≠ render [1, 4, 0] := by
  have legible : ∀ symbol ∈ [1, 40] ++ [1, 4, 0], Legible symbol := by
    unfold Legible
    decide
  have different : [1, 40] ≠ [1, 4, 0] := by decide
  exact ⟨legible, different, (render_distinguishes [1, 40] [1, 4, 0]).2.1 legible different⟩

/-- A symbol that narrowing takes to zero has the text of zero. -/
theorem narrowing_not_distinguished :
    (∀ symbol ∈ [narrowing] ++ [0], symbol < UInt64.size) ∧ [narrowing] ≠ [0] ∧
      render [narrowing] = render [0] := by
  exact ⟨by decide, by decide, by decide⟩

end Word

end Acceptors
