import Acceptors.Proofs.NumberLines
import Acceptors.Proofs.Targets
import Mathlib.Data.List.Forall2
import Mathlib.Data.List.TakeWhile

/-!
Contract: which lines describe an automaton, and which automaton they describe.

Owns: tokens, numerals and lines as relations that mention no reader, the equality of the
first two with what is computed, and the grammar of the text form.
Does not own: the reader of lines, and the reasons for which it refuses some.

Tokens are found by dividing a line at every blank, and numerals by tests on all of their
characters at once. The relations follow a line from left to right and a numeral digit by
digit, and are equal to both computations.
-/

namespace Acceptors

namespace Text

/-! ## Tokens -/

/-- A text with its maximal runs of characters that are not blank. -/
inductive Runs : List Char → List (List Char) → Prop where
  | nil : Runs [] []
  | blank {character : Char} {behind : List Char} {tokens : List (List Char)}
      (isBlank : isBlank character = true) (runs : Runs behind tokens) :
      Runs (character :: behind) tokens
  /-- A token ends where the text ends or a blank follows. -/
  | token {token behind : List Char} {tokens : List (List Char)} (isToken : IsToken token)
      (maximal : ∀ next ∈ behind.head?, Text.isBlank next = true) (runs : Runs behind tokens) :
      Runs (token ++ behind) (token :: tokens)

theorem Runs.tokenChars_eq {characters : List Char} {tokens : List (List Char)}
    (runs : Runs characters tokens) : tokenChars characters = tokens := by
  induction runs with
  | nil => rfl
  | blank isBlank runs inductionHypothesis =>
      rw [tokenChars_cons_blank isBlank, inductionHypothesis]
  | @token token behind tokens isToken maximal runs inductionHypothesis =>
      have alone : tokenChars token = [token] := tokenChars_of_no_blank isToken.1 isToken.2
      cases behind with
      | nil =>
          rw [List.append_nil, alone, ← inductionHypothesis]
          rfl
      | cons next rest =>
          have blank : isBlank next = true := maximal next rfl
          rw [tokenChars_append_blank token rest blank, alone, ← inductionHypothesis,
            tokenChars_cons_blank blank]
          rfl

/-- A character in front of a text is a blank, a token of its own or a part of the first token. -/
theorem Runs.exists_cons {behind : List Char} {tokens : List (List Char)}
    (runs : Runs behind tokens) (character : Char) :
    ∃ more, Runs (character :: behind) more := by
  cases blank : isBlank character with
  | true => exact ⟨tokens, .blank blank runs⟩
  | false =>
      have alone : IsToken [character] := by
        refine ⟨List.cons_ne_nil _ _, fun other listed => ?_⟩
        rw [List.mem_singleton.mp listed]
        exact blank
      cases runs with
      | nil => exact ⟨_, .token alone (fun _ listed => absurd listed (by simp)) .nil⟩
      | blank nextBlank rest =>
          refine ⟨_, .token alone (fun next listed => ?_) (.blank nextBlank rest)⟩
          cases listed
          exact nextBlank
      | @token token _ _ isToken maximal rest =>
          have longer : IsToken (character :: token) := by
            refine ⟨List.cons_ne_nil _ _, fun other listed => ?_⟩
            rcases List.mem_cons.mp listed with rfl | later
            · exact blank
            · exact isToken.2 other later
          exact ⟨_, .token longer maximal rest⟩

theorem exists_runs (characters : List Char) : ∃ tokens, Runs characters tokens := by
  induction characters with
  | nil => exact ⟨[], .nil⟩
  | cons head tail inductionHypothesis =>
      obtain ⟨tokens, runs⟩ := inductionHypothesis
      exact runs.exists_cons head

/-- Every text has its runs, and they are the tokens that are computed. -/
theorem runs_iff {characters : List Char} {tokens : List (List Char)} :
    Runs characters tokens ↔ tokenChars characters = tokens := by
  constructor
  · exact Runs.tokenChars_eq
  · intro same
    obtain ⟨others, runs⟩ := exists_runs characters
    rwa [← same, runs.tokenChars_eq]

/-! ## Numerals -/

namespace Numeral

/-- One or more ASCII digits and the number for which they stand. -/
inductive Digits : List Char → Nat → Prop where
  | single {digit : Char} (isDigit : digit.isDigit = true) :
      Digits [digit] (digit.toNat - '0'.toNat)
  | append {digits : List Char} {digit : Char} {value : Nat} (before : Digits digits value)
      (isDigit : digit.isDigit = true) :
      Digits (digits ++ [digit]) (10 * value + (digit.toNat - '0'.toNat))

/-- Digits with at most one plus sign in front, for a number that 64 bits hold. -/
inductive Denotes : List Char → Nat → Prop where
  | plain {characters : List Char} {value : Nat} (digits : Digits characters value)
      (below : value < UInt64.size) : Denotes characters value
  | signed {characters : List Char} {value : Nat} (digits : Digits characters value)
      (below : value < UInt64.size) : Denotes ('+' :: characters) value

theorem Digits.isDigit_of_mem {digits : List Char} {value : Nat} (stand : Digits digits value) :
    ∀ digit ∈ digits, digit.isDigit = true := by
  induction stand with
  | single isDigit =>
      intro digit listed
      exact List.mem_singleton.mp listed ▸ isDigit
  | append before isDigit inductionHypothesis =>
      intro digit listed
      rcases List.mem_append.mp listed with earlier | last
      · exact inductionHypothesis digit earlier
      · exact List.mem_singleton.mp last ▸ isDigit

theorem Digits.append_forall {digits more : List Char} {value : Nat}
    (stand : Digits digits value) (areDigits : ∀ digit ∈ more, digit.isDigit = true) :
    Digits (digits ++ more) (Nat.ofDigitChars 10 more value) := by
  induction more generalizing digits value with
  | nil =>
      rw [List.append_nil, Nat.ofDigitChars_nil]
      exact stand
  | cons head tail inductionHypothesis =>
      have longer := stand.append (areDigits head List.mem_cons_self)
      rw [Nat.ofDigitChars_cons, List.append_cons]
      exact inductionHypothesis longer fun digit later =>
        areDigits digit (List.mem_cons_of_mem _ later)

theorem digits_iff {digits : List Char} {value : Nat} :
    Digits digits value ↔ digits ≠ [] ∧ (∀ digit ∈ digits, digit.isDigit = true) ∧
      Nat.ofDigitChars 10 digits 0 = value := by
  constructor
  · intro stand
    refine ⟨?_, stand.isDigit_of_mem, ?_⟩
    · cases stand <;> simp
    · induction stand with
      | single isDigit => simp [Nat.ofDigitChars_cons, Nat.ofDigitChars_nil]
      | append before isDigit inductionHypothesis =>
          rw [Nat.ofDigitChars_append, inductionHypothesis, Nat.ofDigitChars_cons,
            Nat.ofDigitChars_nil]
  · intro ⟨nonempty, areDigits, value_eq⟩
    obtain ⟨head, tail, rfl⟩ := List.exists_cons_of_ne_nil nonempty
    have first := Digits.single (areDigits head List.mem_cons_self)
    have whole := first.append_forall fun digit later =>
      areDigits digit (List.mem_cons_of_mem _ later)
    rw [Nat.ofDigitChars_cons, Nat.mul_zero, Nat.zero_add] at value_eq
    exact value_eq ▸ whole

theorem digitsValue?_eq_some_iff {digits : List Char} {value : Nat} :
    digitsValue? digits = some value ↔ Digits digits value ∧ value < UInt64.size := by
  have refused : (digits.isEmpty || !digits.all Char.isDigit) = true ↔
      ¬(digits ≠ [] ∧ ∀ digit ∈ digits, digit.isDigit = true) := by
    rw [← List.all_eq_true, ← List.isEmpty_eq_false_iff]
    cases digits.isEmpty <;> cases digits.all Char.isDigit <;> simp
  rw [digits_iff, digitsValue?, limit]
  simp only [Option.ite_none_left_eq_some, Option.ite_none_right_eq_some, Option.some.injEq,
    refused, Classical.not_not]
  constructor
  · rintro ⟨⟨nonempty, areDigits⟩, below, rfl⟩
    exact ⟨⟨nonempty, areDigits, rfl⟩, below⟩
  · rintro ⟨⟨nonempty, areDigits, rfl⟩, below⟩
    exact ⟨⟨nonempty, areDigits⟩, below, rfl⟩

/-- A numeral is read exactly if it denotes a number, and as this number. -/
theorem charsValue?_eq_some_iff {characters : List Char} {value : Nat} :
    charsValue? characters = some value ↔ Denotes characters value := by
  unfold charsValue?
  split
  · rename_i digits
    rw [digitsValue?_eq_some_iff]
    constructor
    · intro ⟨stand, below⟩
      exact .signed stand below
    · intro denotes
      cases denotes with
      | plain stand below =>
          have digit : '+'.isDigit = true := stand.isDigit_of_mem '+' List.mem_cons_self
          exact absurd digit (by decide)
      | signed stand below => exact ⟨stand, below⟩
  · rename_i noSign
    rw [digitsValue?_eq_some_iff]
    constructor
    · intro ⟨stand, below⟩
      exact .plain stand below
    · intro denotes
      cases denotes with
      | plain stand below => exact ⟨stand, below⟩
      | @signed digits _ stand below => exact absurd rfl (noSign digits)

theorem Denotes.unique {characters : List Char} {value other : Nat}
    (denotes : Denotes characters value) (otherDenotes : Denotes characters other) :
    value = other := by
  rw [← charsValue?_eq_some_iff] at denotes otherDenotes
  exact Option.some.inj (denotes.symm.trans otherDenotes)

end Numeral

end Text

/-! ## Lines -/

namespace Grammar

open Encoding (Header)

/-- The tokens of a line denote these numbers, in order. -/
def Holds (content : String) (values : List Nat) : Prop :=
  ∃ tokens, Text.Runs content.toList tokens ∧ List.Forall₂ Text.Numeral.Denotes tokens values

def Blank (content : String) : Prop :=
  ∀ character ∈ content.toList, Text.isBlank character = true

/-- A line holds one list of numbers at most. -/
theorem Holds.unique {content : String} {values others : List Nat}
    (holds : Holds content values) (otherHolds : Holds content others) : values = others := by
  obtain ⟨tokens, runs, denote⟩ := holds
  obtain ⟨_, otherRuns, otherDenote⟩ := otherHolds
  rw [← otherRuns.tokenChars_eq, runs.tokenChars_eq] at otherDenote
  have unique : Relator.RightUnique Text.Numeral.Denotes :=
    fun _ _ _ denotes otherDenotes => denotes.unique otherDenotes
  exact List.right_unique_forall₂' unique denote otherDenote

theorem Holds.lt_of_mem {content : String} {values : List Nat} (holds : Holds content values) :
    ∀ value ∈ values, value < UInt64.size := by
  obtain ⟨tokens, runs, denote⟩ := holds
  clear runs
  induction denote with
  | nil => simp
  | cons denotes _ inductionHypothesis =>
      refine List.forall_mem_cons.mpr ⟨?_, inductionHypothesis⟩
      cases denotes with
      | plain _ below => exact below
      | signed _ below => exact below

theorem holds_trim_iff {content : String} {values : List Nat} :
    Holds (Text.trim content) values ↔ Holds content values := by
  simp only [Holds, Text.runs_iff, Text.trim, String.toList_ofList, Text.tokenChars_trimChars]

theorem Blank.holds_nil {content : String} (blank : Blank content) : Holds content [] :=
  ⟨[], Text.runs_iff.mpr (Text.tokenChars_of_forall_blank blank), .nil⟩

/-- A line is blank if nothing is left of it without the blanks at its ends. -/
theorem isEmpty_trim_iff {content : String} :
    (Text.trim content).isEmpty = true ↔ Blank content := by
  rw [String.isEmpty_iff, Text.trim, String.ofList_eq_empty_iff, Text.trimChars,
    List.reverse_eq_nil_iff, List.dropWhile_eq_nil_iff]
  simp only [List.mem_reverse]
  constructor
  · intro rest character listed
    rw [← @List.takeWhile_append_dropWhile _ Text.isBlank content.toList] at listed
    rcases List.mem_append.mp listed with before | behind
    · exact List.all_eq_true.mp List.all_takeWhile character before
    · exact rest character behind
  · intro blank character listed
    exact blank character (List.dropWhile_sublist Text.isBlank |>.mem listed)

/-- A line with a source, a symbol and one or more targets, all of them in range. -/
def HoldsTransitions (header : Header) (content : String) : Prop :=
  ∃ source symbol targets, Holds content (source :: symbol :: targets) ∧ targets ≠ [] ∧
    source < header.size ∧ symbol < header.alphabetSize ∧
      ∀ target ∈ targets, target < header.size

/-- A line with the source and the symbol of an edge that has its target among others. -/
def Lists (content : String) (edge : Edge) : Prop :=
  ∃ targets, Holds content (edge.source :: edge.symbol :: targets) ∧ edge.target ∈ targets

/-- What a line in range lists is in range. -/
theorem Lists.inRange {header : Header} {content : String} {edge : Edge}
    (lists : Lists content edge) (usable : Blank content ∨ HoldsTransitions header content) :
    edge.source < header.size ∧ edge.symbol < header.alphabetSize ∧
      edge.target < header.size := by
  obtain ⟨targets, holds, belongs⟩ := lists
  rcases usable with blank | ⟨_, _, _, alsoHolds, _, inRange⟩
  · cases holds.unique blank.holds_nil
  · cases holds.unique alsoHolds
    exact ⟨inRange.1, inRange.2.1, inRange.2.2 edge.target belongs⟩

/-- Four lines that hold a header, and the lines behind them. -/
inductive HeaderLines : List String → Header → List String → Prop where
  | intro {first second third fourth : String} {header : Header} {later : List String}
      (size : Holds first [header.size]) (alphabetSize : Holds second [header.alphabetSize])
      (initial : Holds third header.initial) (accepting : Holds fourth header.accepting) :
      HeaderLines (first :: second :: third :: fourth :: later) header later

/-- Lines that describe an automaton. -/
structure Follows (lines : List String) (header : Header) (later : List String) : Prop where
  headerLines : HeaderLines lines header later
  size_pos : 1 ≤ header.size
  alphabetSize_pos : 1 ≤ header.alphabetSize
  initial_nonempty : header.initial ≠ []
  initial_lt : ∀ state ∈ header.initial, state < header.size
  accepting_lt : ∀ state ∈ header.accepting, state < header.size
  usable : ∀ content ∈ later, Blank content ∨ HoldsTransitions header content

/-- The automaton that a header and the lines behind it describe. -/
structure Describes (header : Header) (later : List String) (automaton : Automaton) : Prop where
  size_eq : automaton.size = header.size
  alphabetSize_eq : automaton.alphabetSize = header.alphabetSize
  mem_initial_iff : ∀ state, state ∈ automaton.initial ↔ state ∈ header.initial
  mem_accepting_iff : ∀ state, state ∈ automaton.accepting ↔ state ∈ header.accepting
  successors_iff : ∀ source symbol target,
    (∃ targets, automaton.successors? source symbol = some targets ∧ target ∈ targets) ↔
      ∃ content ∈ later, Lists content ⟨source, symbol, target⟩

/-- No two automata are described by the same lines. -/
theorem Describes.unique {header : Header} {later : List String} {left right : Automaton}
    (describes : Describes header later left) (otherDescribes : Describes header later right) :
    left = right := by
  apply Automaton.ext_targets
  · rw [describes.size_eq, otherDescribes.size_eq]
  · rw [describes.alphabetSize_eq, otherDescribes.alphabetSize_eq]
  · ext state
    rw [describes.mem_initial_iff, otherDescribes.mem_initial_iff]
  · ext state
    rw [describes.mem_accepting_iff, otherDescribes.mem_accepting_iff]
  · intro source symbol
    ext target
    rw [Automaton.mem_targets_iff, Automaton.mem_targets_iff, describes.successors_iff,
      otherDescribes.successors_iff]

end Grammar

end Acceptors
