import Acceptors.Attempt
import Acceptors.Word

/-!
Contract: which strings spell words, and what they spell.

Owns: the characters that denote symbols, the word or the error that decoding gives for every
string, and the text of the words that strings spell.
Does not own: the text of symbols without a character, and the check against an alphabet.

Decoding goes through characters paired with their positions. Its laws are proved for every
number that the first position may have, since the positions of a tail start later.
-/

namespace Acceptors

/-! ## First items -/

/-- The item at the position lacks the property and no item before it does. -/
def FirstWithout {Item : Type} (property : Item → Prop) (items : List Item) (position : Nat)
    (item : Item) : Prop :=
  items[position]? = some item ∧ ¬property item ∧
    ∀ earlier other, earlier < position → items[earlier]? = some other → property other

section

variable {Item : Type} {property : Item → Prop} {head item : Item} {tail : List Item}
  {position : Nat}

theorem firstWithout_cons_of_not (fails : ¬property head) :
    FirstWithout property (head :: tail) position item ↔ position = 0 ∧ item = head := by
  constructor
  · intro ⟨found, _, before⟩
    cases position with
    | zero => exact ⟨rfl, (Option.some.inj found).symm⟩
    | succ position => exact absurd (before 0 head (Nat.succ_pos _) rfl) fails
  · rintro ⟨rfl, rfl⟩
    exact ⟨rfl, fails, fun _ _ earlier => absurd earlier (Nat.not_lt_zero _)⟩

theorem firstWithout_cons_of (holds : property head) :
    FirstWithout property (head :: tail) position item ↔
      ∃ later, position = later + 1 ∧ FirstWithout property tail later item := by
  constructor
  · intro ⟨found, fails, before⟩
    cases position with
    | zero => exact absurd (Option.some.inj found ▸ holds) fails
    | succ later =>
        refine ⟨later, rfl, found, fails, fun earlier other less otherFound => ?_⟩
        exact before (earlier + 1) other (Nat.succ_lt_succ less) otherFound
  · rintro ⟨later, rfl, found, fails, before⟩
    refine ⟨found, fails, fun earlier other less otherFound => ?_⟩
    cases earlier with
    | zero => exact Option.some.inj otherFound ▸ holds
    | succ earlier => exact before earlier other (Nat.lt_of_succ_lt_succ less) otherFound

variable {outcome : Nat → Item → Prop}

theorem not_exists_first_nil :
    ¬∃ position item, FirstWithout property [] position item ∧ outcome position item := by
  intro ⟨position, item, ⟨found, _⟩, _⟩
  simp at found

theorem exists_first_cons_of_not (fails : ¬property head) :
    (∃ position item, FirstWithout property (head :: tail) position item ∧
      outcome position item) ↔ outcome 0 head := by
  simp only [firstWithout_cons_of_not fails]
  constructor
  · rintro ⟨_, _, ⟨rfl, rfl⟩, follows⟩
    exact follows
  · intro follows
    exact ⟨0, head, ⟨rfl, rfl⟩, follows⟩

theorem exists_first_cons_of (holds : property head) :
    (∃ position item, FirstWithout property (head :: tail) position item ∧
        outcome position item) ↔
      ∃ later item, FirstWithout property tail later item ∧ outcome (later + 1) item := by
  simp only [firstWithout_cons_of holds]
  constructor
  · rintro ⟨_, item, ⟨later, rfl, first⟩, follows⟩
    exact ⟨later, item, first, follows⟩
  · rintro ⟨later, item, first, follows⟩
    exact ⟨later + 1, item, ⟨later, rfl, first⟩, follows⟩

end

namespace Word

/-! ## Characters of symbols -/

/-- The character is an ASCII digit or an ASCII letter. -/
def Alphanumeric (character : Char) : Prop := character.isAlphanum = true

theorem isSome_symbol?_iff {character : Char} :
    (symbol? character).isSome ↔ Alphanumeric character := by
  have kinds : character.isAlphanum =
      (character.isUpper || character.isLower || character.isDigit) := rfl
  unfold symbol? Alphanumeric
  rw [kinds]
  cases character.isDigit <;> cases character.isLower <;> cases character.isUpper <;> simp

theorem Alphanumeric.toNat_lt {character : Char} (alphanumeric : Alphanumeric character) :
    character.toNat < 128 := by
  have ranges : character.isAlphanum =
      (decide (65 ≤ character.val ∧ character.val ≤ 90) ||
        decide (97 ≤ character.val) && decide (character.val ≤ 122) ||
        decide (48 ≤ character.val) && decide (character.val ≤ 57)) := rfl
  simp only [Alphanumeric, ranges, Bool.or_eq_true, Bool.and_eq_true, decide_eq_true_eq,
    UInt32.le_iff_toNat_le] at alphanumeric
  change ((65 ≤ character.toNat ∧ character.toNat ≤ 90) ∨
    (97 ≤ character.toNat ∧ character.toNat ≤ 122)) ∨
    (48 ≤ character.toNat ∧ character.toNat ≤ 57) at alphanumeric
  omega

/-- The symbol of a character is below the radix and has the same character in lower case. -/
theorem character_of_symbol? {symbol : Nat} {spelled : Char}
    (denotes : symbol? spelled = some symbol) :
    symbol < radix ∧ character symbol = spelled.toLower := by
  -- Only ASCII characters denote symbols, and these are few enough to look at all of them.
  have all : ∀ code : Fin 128, (symbol? (Char.ofNat code)).all fun symbol =>
      decide (symbol < radix ∧ character symbol = (Char.ofNat code).toLower) := by
    decide
  have alphanumeric : Alphanumeric spelled := isSome_symbol?_iff.mp (by rw [denotes]; rfl)
  have checked := all ⟨spelled.toNat, alphanumeric.toNat_lt⟩
  rw [Char.ofNat_toNat, denotes] at checked
  simpa using checked

/-! ## Decoding -/

/-- The symbol of a character that stands at a position. -/
def symbolAt (entry : Char × Nat) : Except WordError Nat :=
  match symbol? entry.1 with
  | some symbol => .ok symbol
  | none => .error (.invalidSymbol entry.2 entry.1)

/-- Decoding of characters of which the first stands at a given position. -/
def decodeFrom (start : Nat) (characters : List Char) : Except WordError Word :=
  (characters.zipIdx start).mapM symbolAt

theorem decode_eq (input : String) : decode input = decodeFrom 0 input.toList := rfl

section

variable {start symbol : Nat} {head : Char} {tail characters : List Char} {word : Word}

theorem decodeFrom_cons_of_some (denotes : symbol? head = some symbol) :
    decodeFrom start (head :: tail) = (decodeFrom (start + 1) tail).map (symbol :: ·) := by
  unfold decodeFrom
  rw [List.zipIdx_cons, List.mapM_cons, symbolAt, denotes]
  cases (tail.zipIdx (start + 1)).mapM symbolAt <;> rfl

theorem decodeFrom_cons_of_none (denotesNone : symbol? head = none) :
    decodeFrom start (head :: tail) = .error (.invalidSymbol start head) := by
  unfold decodeFrom
  rw [List.zipIdx_cons, List.mapM_cons, symbolAt, denotesNone]
  rfl

/-- A word is decoded when each character denotes its symbol. -/
theorem decodeFrom_eq_ok_iff :
    decodeFrom start characters = .ok word ↔ characters.map symbol? = word.map some := by
  induction characters generalizing start word with
  | nil =>
      cases word with
      | nil => exact iff_of_true rfl rfl
      | cons symbol rest => exact iff_of_false (fun same => nomatch same) (fun same => nomatch same)
  | cons head tail inductionHypothesis =>
      cases denotes : symbol? head with
      | none =>
          rw [decodeFrom_cons_of_none denotes, List.map_cons, denotes]
          cases word <;> simp
      | some symbol =>
          rw [decodeFrom_cons_of_some denotes, map_eq_ok_iff, List.map_cons, denotes]
          simp only [inductionHypothesis]
          cases word with
          | nil => simp
          | cons first rest =>
              simp only [List.cons.injEq, List.map_cons, Option.some.injEq, eq_comm]
              constructor
              · rintro ⟨_, same, rfl, rfl⟩
                exact ⟨rfl, same⟩
              · rintro ⟨rfl, same⟩
                exact ⟨rest, same, rfl, rfl⟩

/-- The first character that denotes no symbol is refused. -/
theorem decodeFrom_eq_error_iff {error : WordError} :
    decodeFrom start characters = .error error ↔ ∃ position character,
      FirstWithout Alphanumeric characters position character ∧
        error = .invalidSymbol (start + position) character := by
  induction characters generalizing start with
  | nil => exact iff_of_false (fun same => nomatch same) not_exists_first_nil
  | cons head tail inductionHypothesis =>
      cases denotes : symbol? head with
      | none =>
          have fails : ¬Alphanumeric head := by
            rw [← isSome_symbol?_iff, denotes]
            exact Bool.false_ne_true
          rw [exists_first_cons_of_not fails, decodeFrom_cons_of_none denotes, Except.error.injEq,
            eq_comm]
          rfl
      | some symbol =>
          have holds : Alphanumeric head := by
            rw [← isSome_symbol?_iff, denotes]
            rfl
          have tailError : decodeFrom start (head :: tail) = .error error ↔
              decodeFrom (start + 1) tail = .error error := by
            rw [decodeFrom_cons_of_some denotes]
            cases decodeFrom (start + 1) tail <;> simp [Except.map]
          simp only [tailError, inductionHypothesis, exists_first_cons_of holds,
            Nat.add_right_comm start 1, ← Nat.add_assoc]

theorem exists_symbols_iff : (∃ word : Word, characters.map symbol? = word.map some) ↔
    ∀ character ∈ characters, Alphanumeric character := by
  induction characters with
  | nil => exact iff_of_true ⟨[], rfl⟩ fun _ listed => absurd listed List.not_mem_nil
  | cons head tail inductionHypothesis =>
      rw [List.forall_mem_cons, ← inductionHypothesis, ← isSome_symbol?_iff,
        Option.isSome_iff_exists]
      constructor
      · rintro ⟨word, same⟩
        cases word with
        | nil => cases same
        | cons symbol rest =>
            obtain ⟨headSame, tailSame⟩ := List.cons.inj same
            exact ⟨⟨symbol, headSame⟩, rest, tailSame⟩
      · rintro ⟨⟨symbol, headSame⟩, rest, tailSame⟩
        exact ⟨symbol :: rest, by rw [List.map_cons, headSame, tailSame, List.map_cons]⟩

end

/-! ## The text of a word -/

/-- A text without its first and its last character. -/
def unquoted (text : String) : String := String.ofList text.toList.tail.dropLast

theorem unquoted_render (word : Word) :
    unquoted (render word) = String.join (word.map renderSymbol) := by
  have quote : "\"".toList = ['"'] := rfl
  rw [unquoted, render, String.toList_append, String.toList_append, quote, List.singleton_append,
    List.cons_append, List.tail_cons, List.dropLast_concat, String.ofList_toList]

theorem mod_narrowing_of_lt {symbol : Nat} (below : symbol < radix) :
    symbol % narrowing = symbol :=
  Nat.mod_eq_of_lt (Nat.lt_trans below (by decide))

theorem renderSymbol_of_lt {symbol : Nat} (below : symbol < radix) :
    renderSymbol symbol = String.singleton (character symbol) := by
  rw [renderSymbol, mod_narrowing_of_lt below, if_pos below]

/-- Symbols below the radix are written as their characters. -/
theorem join_renderSymbol {word : Word} (below : ∀ symbol ∈ word, symbol < radix) :
    String.join (word.map renderSymbol) = String.ofList (word.map character) := by
  have pieces : word.map renderSymbol =
      word.map fun symbol => String.singleton (character symbol) :=
    List.map_congr_left fun symbol listed => renderSymbol_of_lt (below symbol listed)
  apply String.toList_inj.mp
  rw [pieces, String.toList_join, List.flatMap_map, String.toList_ofList, List.map_eq_flatMap]
  simp only [String.toList_singleton]

/-- A word is decoded from its text if its symbols have characters. -/
theorem decode_unquoted_render {word : Word} (below : ∀ symbol ∈ word, symbol < radix) :
    decode (unquoted (render word)) = .ok word := by
  rw [unquoted_render, join_renderSymbol below, decode_eq, String.toList_ofList,
    decodeFrom_eq_ok_iff, List.map_map]
  exact List.map_congr_left fun symbol listed => symbol?_character (below symbol listed)

section

variable {characters : List Char} {word : Word}

theorem lt_radix_of_symbols (same : characters.map symbol? = word.map some) :
    ∀ symbol ∈ word, symbol < radix := by
  intro symbol listed
  obtain ⟨spelled, _, denotes⟩ := List.mem_map.mp (same ▸ List.mem_map_of_mem listed)
  exact (character_of_symbol? denotes).1

/-- The characters of a word are those that it was decoded from, in lower case. -/
theorem map_character_of_symbols (same : characters.map symbol? = word.map some) :
    word.map character = characters.map Char.toLower := by
  induction characters generalizing word with
  | nil =>
      cases word with
      | nil => rfl
      | cons symbol rest => cases same
  | cons head tail inductionHypothesis =>
      cases word with
      | nil => cases same
      | cons symbol rest =>
          obtain ⟨headSame, tailSame⟩ := List.cons.inj same
          rw [List.map_cons, List.map_cons, (character_of_symbol? headSame).2,
            inductionHypothesis tailSame]

end

/-- A decoded word has a symbol for each character, and its text is the string in lower case. -/
theorem render_of_decode {input : String} {word : Word} (decoded : decode input = .ok word) :
    word.length = input.length ∧ render word = "\"" ++ input.toLower ++ "\"" := by
  have same : input.toList.map symbol? = word.map some := decodeFrom_eq_ok_iff.mp decoded
  constructor
  · have lengths := congrArg List.length same
    rw [List.length_map, List.length_map, String.length_toList] at lengths
    exact lengths.symm
  · have lowered : String.ofList (input.toList.map Char.toLower) = input.toLower := by
      rw [← String.toList_map, String.ofList_toList]
      rfl
    rw [render, join_renderSymbol (lt_radix_of_symbols same), map_character_of_symbols same,
      lowered]

/-- Strings of digits and letters are decoded, to a word whose text is the string in lower
case. Of all other strings the first other character is refused. Words that are written with
digits and letters are decoded from their text. -/
theorem decode_inverts_render :
    (∀ input : String,
      ((∃ word, decode input = .ok word) ↔ ∀ character ∈ input.toList, Alphanumeric character) ∧
      (∀ word, decode input = .ok word →
        word.length = input.length ∧ render word = "\"" ++ input.toLower ++ "\"" ∧
          decode (unquoted (render word)) = .ok word) ∧
      ∀ error, decode input = .error error ↔ ∃ position character,
        FirstWithout Alphanumeric input.toList position character ∧
          error = .invalidSymbol position character) ∧
    ∀ word : Word, (∀ symbol ∈ word, symbol < radix) →
      decode (unquoted (render word)) = .ok word := by
  refine ⟨fun input => ⟨?_, fun word decoded => ?_, fun error => ?_⟩, fun word =>
    decode_unquoted_render⟩
  · simp only [decode_eq, decodeFrom_eq_ok_iff]
    exact exists_symbols_iff
  · obtain ⟨length_eq, render_eq⟩ := render_of_decode decoded
    have below := lt_radix_of_symbols (decodeFrom_eq_ok_iff.mp decoded)
    exact ⟨length_eq, render_eq, decode_unquoted_render below⟩
  · simp only [decode_eq, decodeFrom_eq_error_iff, Nat.zero_add]

/-- Letters of both cases denote the same symbols. -/
theorem decode_mixedCase :
    decode "aZ0" = .ok [10, 35, 0] ∧ render [10, 35, 0] = "\"" ++ "aZ0".toLower ++ "\"" ∧
      (∀ symbol ∈ [10, 35, 0], symbol < radix) ∧
      decode (unquoted (render [10, 35, 0])) = .ok [10, 35, 0] := by
  have decoded : decode "aZ0" = .ok [10, 35, 0] := rfl
  have below : ∀ symbol ∈ [10, 35, 0], symbol < radix := by decide
  obtain ⟨strings, words⟩ := decode_inverts_render
  exact ⟨decoded, ((strings "aZ0").2.1 _ decoded).2.1, below, words _ below⟩

/-- Of two characters that denote no symbol the first is refused, and each character in front
of it counts once. -/
example : decode "1½é" = .error (.invalidSymbol 1 '½') := rfl

end Word

end Acceptors
