import Acceptors.Text.Blank

/-!
Contract: the parts of a line.

Owns: the maximal runs of characters that are not blank, and the line without
the blanks at its two ends.
Does not own: what a token stands for.
-/

namespace Acceptors.Text

/-- The maximal runs of characters that are not blank. -/
def tokenChars (characters : List Char) : List (List Char) :=
  (characters.splitOnP isBlank).filter fun token => !token.isEmpty

/-- The tokens of a line. -/
def tokens (line : String) : List String :=
  (tokenChars line.toList).map String.ofList

/-- Tokens are divided at every blank. -/
theorem tokenChars_append_blank (before behind : List Char) {blank : Char}
    (isBlank : isBlank blank = true) :
    tokenChars (before ++ blank :: behind) = tokenChars before ++ tokenChars behind := by
  rw [tokenChars, List.splitOnP_append_cons before behind isBlank, List.filter_append]
  rfl

/-- Characters without a blank among them are one token. -/
theorem tokenChars_of_no_blank {characters : List Char} (nonempty : characters ≠ [])
    (noBlank : ∀ character ∈ characters, isBlank character = false) :
    tokenChars characters = [characters] := by
  rw [tokenChars, List.splitOnP_eq_singleton noBlank]
  simp [nonempty]

/-- The characters between the blanks at both ends. -/
def trimChars (characters : List Char) : List Char :=
  ((characters.dropWhile isBlank).reverse.dropWhile isBlank).reverse

/-- A line without the blanks at both ends. -/
def trim (line : String) : String := String.ofList (trimChars line.toList)

end Acceptors.Text
