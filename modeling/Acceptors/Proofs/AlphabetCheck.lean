import Acceptors.Proofs.Simulation
import Acceptors.Proofs.Spelling

/-!
Contract: decoding with and without a check against an alphabet.

Owns: the first symbol outside the alphabet, the three outcomes of checked decoding, and the
answers of both simulations to words with symbols outside the alphabet.
Does not own: the characters that denote symbols.

The simulations do not look at the alphabet. They reject a word with a symbol outside it since
no transition of a valid automaton carries that symbol, whatever its place in the word.
-/

namespace Acceptors

namespace Automaton

/-- The symbol belongs to the alphabet. -/
def HasSymbol (automaton : Automaton) (symbol : Nat) : Prop := symbol < automaton.alphabetSize

/-- A symbol outside the alphabet is never read. -/
theorem acceptsWith_eq_false_of_outside {automaton : Automaton} {word : Word}
    (outside : ∃ symbol ∈ word, ¬automaton.HasSymbol symbol) (strategy : Strategy) :
    automaton.acceptsWith strategy word = false := by
  rw [Bool.eq_false_iff]
  intro accepted
  obtain ⟨_, _, _, _, run⟩ := acceptsWith_eq_true_iff.mp accepted
  obtain ⟨symbol, listed, missing⟩ := outside
  exact missing (overAlphabet_of_run run symbol listed)

end Automaton

namespace Word

variable {automaton : Automaton}

/-! ## The first symbol outside the alphabet -/

/-- Why a symbol at a position is refused, if it is. -/
def outsideAt? (alphabetSize : Nat) (entry : Nat × Nat) : Option WordError :=
  if entry.1 < alphabetSize then none
  else some (.symbolOutOfRange entry.2 entry.1 alphabetSize)

theorem outOfRange?_eq (alphabetSize : Nat) (word : Word) :
    outOfRange? alphabetSize word = word.zipIdx.findSome? (outsideAt? alphabetSize) := rfl

theorem findSome?_outsideAt?_eq_some_iff {start : Nat} {word : Word} {error : WordError} :
    (word.zipIdx start).findSome? (outsideAt? automaton.alphabetSize) = some error ↔
      ∃ position symbol, FirstWithout automaton.HasSymbol word position symbol ∧
        error = .symbolOutOfRange (start + position) symbol automaton.alphabetSize := by
  induction word generalizing start with
  | nil => exact iff_of_false (fun same => nomatch same) not_exists_first_nil
  | cons head tail inductionHypothesis =>
      rw [List.zipIdx_cons, List.findSome?_cons]
      by_cases inside : automaton.HasSymbol head
      · have accepted : outsideAt? automaton.alphabetSize (head, start) = none := if_pos inside
        simp only [accepted, inductionHypothesis, exists_first_cons_of inside,
          Nat.add_right_comm start 1, ← Nat.add_assoc]
      · have refused : outsideAt? automaton.alphabetSize (head, start) =
            some (.symbolOutOfRange start head automaton.alphabetSize) := if_neg inside
        rw [exists_first_cons_of_not inside, refused, Option.some.injEq, eq_comm]
        rfl

/-- The first symbol outside the alphabet is refused. -/
theorem outOfRange?_eq_some_iff {word : Word} {error : WordError} :
    outOfRange? automaton.alphabetSize word = some error ↔
      ∃ position symbol, FirstWithout automaton.HasSymbol word position symbol ∧
        error = .symbolOutOfRange position symbol automaton.alphabetSize := by
  have found := @findSome?_outsideAt?_eq_some_iff automaton 0 word error
  simp only [Nat.zero_add] at found
  exact found

theorem outOfRange?_eq_none_iff {word : Word} :
    outOfRange? automaton.alphabetSize word = none ↔ automaton.OverAlphabet word := by
  rw [outOfRange?_eq, List.findSome?_eq_none_iff]
  constructor
  · intro accepted symbol listed
    obtain ⟨position, found⟩ := List.mem_iff_getElem?.mp listed
    have unrefused := accepted (symbol, position) (List.mem_zipIdx_iff_getElem?.mpr found)
    rw [outsideAt?, ite_eq_left_iff] at unrefused
    exact Decidable.byContradiction fun outside => nomatch unrefused outside
  · intro overAlphabet entry listed
    exact if_pos (overAlphabet entry.1 (List.fst_mem_of_mem_zipIdx listed))

/-! ## Checked decoding -/

/-- Checked decoding returns the decoded words over the alphabet. -/
theorem decodeFor_eq_ok_iff {input : String} {word : Word} :
    decodeFor automaton input = .ok word ↔
      decode input = .ok word ∧ automaton.OverAlphabet word := by
  unfold decodeFor
  rw [bind_eq_ok_iff]
  constructor
  · intro ⟨read, decoded, checked⟩
    split at checked
    · cases checked
    · rename_i accepted
      cases pure_eq_ok_iff.mp checked
      exact ⟨decoded, outOfRange?_eq_none_iff.mp accepted⟩
  · intro ⟨decoded, overAlphabet⟩
    refine ⟨word, decoded, ?_⟩
    rw [outOfRange?_eq_none_iff.mpr overAlphabet]
    rfl

/-- Checked decoding refuses what decoding refuses, and the first symbol outside the alphabet. -/
theorem decodeFor_eq_error_iff {input : String} {error : WordError} :
    decodeFor automaton input = .error error ↔ decode input = .error error ∨
      ∃ word, decode input = .ok word ∧
        outOfRange? automaton.alphabetSize word = some error := by
  unfold decodeFor
  cases decode input with
  | error other => simp [bind, Except.bind]
  | ok word =>
      simp only [ok_bind, reduceCtorEq, false_or, Except.ok.injEq, exists_eq_left']
      cases outOfRange? automaton.alphabetSize word with
      | none => simp [pure, Except.pure]
      | some other => simp

section

variable {input : String} {position : Nat}

theorem decode_of_invalidSymbol {character : Char}
    (refused : decodeFor automaton input = .error (.invalidSymbol position character)) :
    decode input = .error (.invalidSymbol position character) := by
  rcases decodeFor_eq_error_iff.mp refused with undecoded | ⟨word, _, outside⟩
  · exact undecoded
  · obtain ⟨_, _, _, same⟩ := outOfRange?_eq_some_iff.mp outside
    cases same

/-- A symbol that checked decoding refuses stands at its position in the decoded word. -/
theorem exists_decode_of_symbolOutOfRange {symbol bound : Nat}
    (refused : decodeFor automaton input = .error (.symbolOutOfRange position symbol bound)) :
    bound = automaton.alphabetSize ∧ ∃ word, decode input = .ok word ∧
      FirstWithout automaton.HasSymbol word position symbol := by
  rcases decodeFor_eq_error_iff.mp refused with undecoded | ⟨word, decoded, outside⟩
  · obtain ⟨_, _, _, same⟩ := decodeFrom_eq_error_iff.mp undecoded
    cases same
  · obtain ⟨_, _, first, same⟩ := outOfRange?_eq_some_iff.mp outside
    cases same
    exact ⟨rfl, word, decoded, first⟩

end

end Word

namespace Automaton

/-- Checked decoding returns the decoded words over the alphabet, and these are answered alike
without the check. A string that it refuses for a symbol outside the alphabet is decoded and
rejected without it, and any other string is refused by both for the same character. Neither
simulation accepts a word with a symbol outside the alphabet. -/
theorem acceptsString_agrees_decodeFor (automaton : Automaton) :
    (∀ input,
      (∀ word, Word.decodeFor automaton input = .ok word ↔
        Word.decode input = .ok word ∧ automaton.OverAlphabet word) ∧
      (∀ word, Word.decodeFor automaton input = .ok word →
        automaton.acceptsString input = .ok (automaton.accepts word)) ∧
      (∀ position symbol bound,
        Word.decodeFor automaton input = .error (.symbolOutOfRange position symbol bound) →
          bound = automaton.alphabetSize ∧
          (∀ character ∈ input.toList, (Word.symbol? character).isSome) ∧
          (∃ word, Word.decode input = .ok word ∧
            FirstWithout automaton.HasSymbol word position symbol) ∧
          automaton.acceptsString input = .ok false) ∧
      ∀ position character,
        Word.decodeFor automaton input = .error (.invalidSymbol position character) →
          automaton.acceptsString input = .error (.invalidSymbol position character)) ∧
    ∀ strategy word, (∃ symbol ∈ word, automaton.alphabetSize ≤ symbol) →
      automaton.acceptsWith strategy word = false := by
  refine ⟨fun input => ⟨fun word => Word.decodeFor_eq_ok_iff, ?_, ?_, ?_⟩, ?_⟩
  · intro word accepted
    rw [acceptsString, (Word.decodeFor_eq_ok_iff.mp accepted).1]
    rfl
  · intro position symbol bound refused
    obtain ⟨bound_eq, word, decoded, first⟩ := Word.exists_decode_of_symbolOutOfRange refused
    have spelled := Word.exists_symbols_iff.mp ⟨word, Word.decodeFrom_eq_ok_iff.mp decoded⟩
    refine ⟨bound_eq, fun character listed => ?_, ⟨word, decoded, first⟩, ?_⟩
    · exact Word.isSome_symbol?_iff.mpr (spelled character listed)
    · have outside : ∃ symbol ∈ word, ¬automaton.HasSymbol symbol :=
        ⟨symbol, List.mem_of_getElem? first.1, first.2.1⟩
      rw [acceptsString, decoded]
      exact congrArg Except.ok (acceptsWith_eq_false_of_outside outside .branching)
  · intro position character refused
    rw [acceptsString, Word.decode_of_invalidSymbol refused]
    rfl
  · intro strategy word ⟨symbol, listed, past⟩
    exact acceptsWith_eq_false_of_outside ⟨symbol, listed, Nat.not_lt.mpr past⟩ strategy

/-- One state that reads zeros. -/
def zeros : Automaton where
  toDraft := .ofEdges 1 1 (.ofList [0]) (.ofList [0]) [⟨0, 0, 0⟩]
  valid := Draft.valid_ofEdges (by decide) (by decide) (by decide) (by decide) (by decide)
    (by decide)

/-- A character that denotes no symbol is refused even behind a symbol outside the alphabet. -/
theorem zeros_acceptsString :
    Word.decodeFor zeros "00" = .ok [0, 0] ∧
      zeros.acceptsString "00" = .ok (zeros.accepts [0, 0]) ∧
      Word.decodeFor zeros "0z1" = .error (.symbolOutOfRange 1 35 1) ∧
      zeros.acceptsString "0z1" = .ok false ∧
      Word.decodeFor zeros "0z-" = .error (.invalidSymbol 2 '-') ∧
      zeros.acceptsString "0z-" = .error (.invalidSymbol 2 '-') ∧
      (∃ symbol ∈ [0, 2], zeros.alphabetSize ≤ symbol) ∧
      zeros.acceptsWith .frontier [0, 2] = false := by
  obtain ⟨strings, words⟩ := acceptsString_agrees_decodeFor zeros
  have accepted : Word.decodeFor zeros "00" = .ok [0, 0] := rfl
  have outside : Word.decodeFor zeros "0z1" = .error (.symbolOutOfRange 1 35 1) := rfl
  have invalid : Word.decodeFor zeros "0z-" = .error (.invalidSymbol 2 '-') := rfl
  have past : ∃ symbol ∈ [0, 2], zeros.alphabetSize ≤ symbol := ⟨2, by decide, by decide⟩
  have rejected := ((strings "0z1").2.2.1 1 35 1 outside).2.2.2
  exact ⟨accepted, (strings "00").2.1 _ accepted, outside, rejected, invalid,
    (strings "0z-").2.2.2 _ _ invalid, past, words .frontier _ past⟩

end Automaton

end Acceptors
