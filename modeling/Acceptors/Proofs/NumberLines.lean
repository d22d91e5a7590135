import Acceptors.Encoding

/-!
Contract: lines of numbers, written and read back.

Owns: the tokens of a line, which blanks at its ends do not change, the tokens of joined
numerals, the reading of a written line of numbers, and the check of states on a line.
Does not own: what the numbers on a line stand for, or the lines of a text.
-/

namespace Acceptors

namespace Text

/-! ## Blanks at the ends of a line -/

theorem tokenChars_cons_blank {blank : Char} (isBlank : isBlank blank = true)
    (behind : List Char) : tokenChars (blank :: behind) = tokenChars behind :=
  tokenChars_append_blank [] behind isBlank

theorem tokenChars_dropWhile (characters : List Char) :
    tokenChars (characters.dropWhile isBlank) = tokenChars characters := by
  induction characters with
  | nil => rfl
  | cons head tail inductionHypothesis =>
      by_cases blank : isBlank head = true
      · rw [List.dropWhile_cons_of_pos blank, inductionHypothesis, tokenChars_cons_blank blank]
      · rw [List.dropWhile_cons_of_neg blank]

theorem tokenChars_of_forall_blank {characters : List Char}
    (blanks : ∀ character ∈ characters, isBlank character = true) : tokenChars characters = [] := by
  induction characters with
  | nil => rfl
  | cons head tail inductionHypothesis =>
      rw [tokenChars_cons_blank (blanks head List.mem_cons_self)]
      exact inductionHypothesis fun character later =>
        blanks character (List.mem_cons_of_mem _ later)

theorem tokenChars_append_of_forall_blank (before : List Char) {blanks : List Char}
    (allBlank : ∀ character ∈ blanks, isBlank character = true) :
    tokenChars (before ++ blanks) = tokenChars before := by
  cases blanks with
  | nil => rw [List.append_nil]
  | cons head tail =>
      have tailBlank : tokenChars tail = [] := tokenChars_of_forall_blank fun character later =>
        allBlank character (List.mem_cons_of_mem _ later)
      rw [tokenChars_append_blank before tail (allBlank head List.mem_cons_self), tailBlank,
        List.append_nil]

/-- Blanks at the ends of a line do not change its tokens. -/
theorem tokenChars_trimChars (characters : List Char) :
    tokenChars (trimChars characters) = tokenChars characters := by
  have blanks : ∀ character ∈ ((characters.dropWhile isBlank).reverse.takeWhile isBlank).reverse,
      isBlank character = true := by
    intro character listed
    exact List.all_eq_true.mp List.all_takeWhile character (List.mem_reverse.mp listed)
  calc tokenChars (trimChars characters)
      = tokenChars (trimChars characters ++
          ((characters.dropWhile isBlank).reverse.takeWhile isBlank).reverse) :=
        (tokenChars_append_of_forall_blank _ blanks).symm
    _ = tokenChars (characters.dropWhile isBlank) := by
        rw [trimChars, ← List.reverse_append, List.takeWhile_append_dropWhile, List.reverse_reverse]
    _ = tokenChars characters := tokenChars_dropWhile characters

/-! ## Joined tokens -/

theorem mem_intercalate {Element : Type} {separator : List Element} {parts : List (List Element)}
    {element : Element} (listed : element ∈ separator.intercalate parts) :
    element ∈ separator ∨ ∃ part ∈ parts, element ∈ part := by
  induction parts with
  | nil => simp at listed
  | cons head tail inductionHypothesis =>
      cases tail with
      | nil =>
          rw [List.intercalate_singleton] at listed
          exact Or.inr ⟨head, List.mem_cons_self, listed⟩
      | cons second more =>
          rw [List.intercalate_cons_cons, List.append_assoc, List.mem_append,
            List.mem_append] at listed
          rcases listed with inHead | between | later
          · exact Or.inr ⟨head, List.mem_cons_self, inHead⟩
          · exact Or.inl between
          · obtain inSeparator | ⟨part, isPart, inside⟩ := inductionHypothesis later
            · exact Or.inl inSeparator
            · exact Or.inr ⟨part, List.mem_cons_of_mem _ isPart, inside⟩

/-- Characters that stand as one token. -/
def IsToken (characters : List Char) : Prop :=
  characters ≠ [] ∧ ∀ character ∈ characters, isBlank character = false

/-- Tokens that are joined by a blank are found again. -/
theorem tokenChars_intercalate {parts : List (List Char)}
    (areTokens : ∀ part ∈ parts, IsToken part) :
    tokenChars ([' '].intercalate parts) = parts := by
  induction parts with
  | nil => rfl
  | cons head tail inductionHypothesis =>
      have headToken := areTokens head List.mem_cons_self
      have rest := inductionHypothesis fun part later =>
        areTokens part (List.mem_cons_of_mem _ later)
      have alone : tokenChars head = [head] :=
        tokenChars_of_no_blank headToken.1 headToken.2
      cases tail with
      | nil => rw [List.intercalate_singleton, alone]
      | cons second more =>
          have space : isBlank ' ' = true := rfl
          rw [List.intercalate_cons_cons, List.append_assoc, List.singleton_append,
            tokenChars_append_blank head _ space, alone, rest]
          rfl

theorem map_ofList_toList (texts : List String) :
    (texts.map String.toList).map String.ofList = texts := by
  have same : String.ofList ∘ String.toList = id := funext fun _ => String.ofList_toList
  rw [List.map_map, same, List.map_id]

theorem tokens_intercalate {parts : List String}
    (areTokens : ∀ part ∈ parts, IsToken part.toList) :
    tokens (" ".intercalate parts) = parts := by
  have found : tokenChars ([' '].intercalate (parts.map String.toList)) =
      parts.map String.toList := by
    apply tokenChars_intercalate
    intro characters listed
    obtain ⟨part, isPart, rfl⟩ := List.mem_map.mp listed
    exact areTokens part isPart
  have space : " ".toList = [' '] := rfl
  rw [tokens, String.toList_intercalate, space, found, map_ofList_toList]

theorem isBlank_of_isDigit {digit : Char} (isDigit : digit.isDigit = true) :
    isBlank digit = false := by
  have bounds : 48 ≤ digit.toNat ∧ digit.toNat ≤ 57 := by
    simpa [Char.isDigit, UInt32.le_iff_toNat_le] using isDigit
  simp only [isBlank, blankRanges, List.any_cons, List.any_nil, Bool.or_false, Bool.or_eq_false_iff,
    Bool.and_eq_false_iff, decide_eq_false_iff_not]
  omega

theorem Numeral.isToken_render (number : Nat) : IsToken (Numeral.render number).toList := by
  rw [Numeral.toList_render]
  exact ⟨Numeral.renderChars_ne_nil number, fun _ listed =>
    isBlank_of_isDigit (Numeral.isDigit_of_mem_renderChars listed)⟩

/-- Different numbers have different numerals, also where numerals are not read. -/
theorem Numeral.render_injective {left right : Nat}
    (same : Numeral.render left = Numeral.render right) : left = right := by
  have digits : Nat.toDigits 10 left = Nat.toDigits 10 right := by
    rw [← Numeral.renderChars, ← Numeral.renderChars, ← Numeral.toList_render,
      ← Numeral.toList_render, same]
  rw [← Nat.ofDigitChars_ten_toDigits (n := left), digits, Nat.ofDigitChars_ten_toDigits]

end Text

namespace Encoding

open Text.Numeral

/-! ## Lines of numbers -/

/-- The tokens of a line of numbers are their numerals. -/
theorem tokens_numberLine (values : List Nat) :
    Text.tokens (numberLine values) = values.map render := by
  apply Text.tokens_intercalate
  intro part listed
  obtain ⟨value, _, rfl⟩ := List.mem_map.mp listed
  exact isToken_render value

/-- A line of numbers holds digits and blanks only. -/
theorem isDigit_or_eq_space_of_mem_numberLine {values : List Nat} {character : Char}
    (listed : character ∈ (numberLine values).toList) :
    character.isDigit = true ∨ character = ' ' := by
  have space : " ".toList = [' '] := rfl
  rw [numberLine, String.toList_intercalate, space] at listed
  obtain isSpace | ⟨part, isPart, inside⟩ := Text.mem_intercalate listed
  · exact Or.inr (List.mem_singleton.mp isSpace)
  · obtain ⟨numeral, isNumeral, rfl⟩ := List.mem_map.mp isPart
    obtain ⟨value, _, rfl⟩ := List.mem_map.mp isNumeral
    exact Or.inl (isDigit_of_mem_renderChars (toList_render value ▸ inside))

/-- Different numbers stand on different lines. -/
theorem numberLine_injective {left right : List Nat}
    (same : numberLine left = numberLine right) : left = right := by
  have numerals : left.map render = right.map render := by
    rw [← tokens_numberLine, ← tokens_numberLine, same]
  exact (List.map_inj_right fun _ _ => render_injective).mp numerals

/-- Numbers below the limit are read back from their line. -/
theorem numbers_numberLine (line : Nat) {values : List Nat}
    (below : ∀ value ∈ values, value < limit) :
    numbers line (numberLine values) = .ok values := by
  rw [numbers, tokens_numberLine]
  induction values with
  | nil => rfl
  | cons head tail inductionHypothesis =>
      have headRead : numberOf line (render head) = .ok head := by
        rw [numberOf, parse?_render (below head List.mem_cons_self)]
      rw [List.map_cons, List.mapM_cons, headRead,
        inductionHypothesis fun value later => below value (List.mem_cons_of_mem _ later)]
      rfl

/-! ## Checked numbers -/

theorem refuse_eq_ok_iff {line : Nat} {violation : Option Violation} {done : Unit} :
    refuse line violation = .ok done ↔ violation = none := by
  cases violation <;> simp [refuse]

theorem checkStates_eq_ok_iff {line size : Nat} {states : List Nat} {done : Unit} :
    checkStates line size states = .ok done ↔ ∀ state ∈ states, state < size := by
  rw [checkStates, refuse_eq_ok_iff, List.findSome?_eq_none_iff]
  simp only [stateViolation?_eq_none_iff]

end Encoding

end Acceptors
