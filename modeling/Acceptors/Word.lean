import Acceptors.Simulation

/-!
Contract: words written as strings of characters.

Owns: the characters that denote symbols, the decoding of a string, the check
against an alphabet, and the text that shows a word.
Does not own: the procedures that decide acceptance.

Digits denote the symbols 0 to 9 and letters, in either case, 10 to 35.
-/

namespace Acceptors

/-- Why a string denotes no word. Positions count characters from zero. -/
inductive WordError where
  | invalidSymbol (position : Nat) (character : Char)
  | symbolOutOfRange (position symbol size : Nat)
deriving DecidableEq, Repr

def WordError.message : WordError → String
  | .invalidSymbol position character =>
      s!"character `{character}` at position {position} does not denote a symbol"
  | .symbolOutOfRange position symbol size =>
      s!"symbol {symbol} at position {position} is not in the alphabet of size {size}"

namespace Word

def radix : Nat := 36

def symbol? (character : Char) : Option Nat :=
  if character.isDigit then some (character.toNat - '0'.toNat)
  else if character.isLower then some (character.toNat - 'a'.toNat + 10)
  else if character.isUpper then some (character.toNat - 'A'.toNat + 10)
  else none

/-- The character of a symbol below the radix, letters in lower case. -/
def character (symbol : Nat) : Char :=
  if symbol < 10 then Char.ofNat ('0'.toNat + symbol)
  else Char.ofNat ('a'.toNat + (symbol - 10))

theorem symbol?_character {symbol : Nat} (below : symbol < radix) :
    symbol? (character symbol) = some symbol := by
  have all : ∀ digit : Fin radix, symbol? (character digit) = some digit.val := by decide
  exact all ⟨symbol, below⟩

/-- The word that characters denote, one symbol for each; the first character that
denotes none is refused. -/
def decodeChars (characters : List Char) : Except WordError Word :=
  characters.zipIdx.mapM fun (character, position) =>
    match symbol? character with
    | some symbol => .ok symbol
    | none => .error (.invalidSymbol position character)

def decode (input : String) : Except WordError Word := decodeChars input.toList

def outOfRange? (alphabetSize : Nat) (word : Word) : Option WordError :=
  word.zipIdx.findSome? fun (symbol, position) =>
    if symbol < alphabetSize then none
    else some (.symbolOutOfRange position symbol alphabetSize)

/-- The word over the alphabet of an automaton that a string denotes. -/
def decodeFor (automaton : Automaton) (input : String) : Except WordError Word := do
  let word ← decode input
  match outOfRange? automaton.alphabetSize word with
  | some error => .error error
  | none => return word

/-- All words of a length over the symbols below a bound, in lexicographic order. -/
def ofLength (alphabetSize : Nat) : Nat → List Word
  | 0 => [[]]
  | length + 1 =>
      (List.range alphabetSize).flatMap fun symbol =>
        (ofLength alphabetSize length).map (symbol :: ·)

/-- All words up to a length, shorter ones first. -/
def upToLength (alphabetSize maxLength : Nat) : List Word :=
  (List.range (maxLength + 1)).flatMap (ofLength alphabetSize)

/-- Symbols are taken modulo this number when it is decided whether one has a character. -/
def narrowing : Nat := UInt32.size

/-- One symbol of a word: a character if the narrowed symbol has one, or else the
number in angle brackets. -/
def renderSymbol (symbol : Nat) : String :=
  if symbol % narrowing < radix then String.singleton (character (symbol % narrowing))
  else s!"<{symbol}>"

def render (word : Word) : String :=
  "\"" ++ String.join (word.map renderSymbol) ++ "\""

end Word

/-- Whether an automaton accepts the word that a string denotes, decided by branching.
Symbols outside the alphabet are not refused: no run reads them. -/
def Automaton.acceptsString (automaton : Automaton) (input : String) : Except WordError Bool :=
  (Word.decode input).map automaton.accepts

end Acceptors
