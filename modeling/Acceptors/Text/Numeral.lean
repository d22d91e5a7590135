/-!
Contract: numbers in decimal notation.

Owns: the reading of a numeral, with its limit, and the writing of a number.
Does not own: the tokens that a line is divided into.

Numbers are written without leading zeros. A numeral that is read may have
leading zeros and one plus sign in front. `parse?_render` ties the two together.
-/

namespace Acceptors.Text.Numeral

/-- Numbers from here on are not read. -/
def limit : Nat := UInt64.size

/-- The value of a nonempty list of digits, unless it reaches the limit. -/
def digitsValue? (digits : List Char) : Option Nat :=
  if digits.isEmpty || !digits.all Char.isDigit then none
  else
    let value := Nat.ofDigitChars 10 digits 0
    if value < limit then some value else none

/-- The value of a numeral. -/
def charsValue? : List Char → Option Nat
  | '+' :: digits => digitsValue? digits
  | digits => digitsValue? digits

/-- The number that a token denotes. -/
def parse? (token : String) : Option Nat := charsValue? token.toList

/-- The digits of a number. -/
def renderChars (number : Nat) : List Char := Nat.toDigits 10 number

/-- A number in decimal notation. -/
def render (number : Nat) : String := toString number

theorem toList_render (number : Nat) : (render number).toList = renderChars number :=
  Nat.toList_repr

theorem isDigit_of_mem_renderChars {number : Nat} {digit : Char}
    (listed : digit ∈ renderChars number) : digit.isDigit :=
  Nat.isDigit_of_mem_toDigits (by decide) (by decide) listed

theorem renderChars_ne_nil (number : Nat) : renderChars number ≠ [] := Nat.toDigits_ne_nil

theorem digitsValue?_renderChars {number : Nat} (below : number < limit) :
    digitsValue? (renderChars number) = some number := by
  have digits : (renderChars number).all Char.isDigit = true :=
    List.all_eq_true.mpr fun _ listed => isDigit_of_mem_renderChars listed
  have value : Nat.ofDigitChars 10 (renderChars number) 0 = number :=
    Nat.ofDigitChars_ten_toDigits
  simp [digitsValue?, digits, value, below, renderChars_ne_nil]

/-- A number below the limit is read back from its notation. -/
theorem parse?_render {number : Nat} (below : number < limit) :
    parse? (render number) = some number := by
  have noPlus : ∀ digits, renderChars number ≠ '+' :: digits := by
    intro digits same
    have listed : '+' ∈ renderChars number := same ▸ List.mem_cons_self
    have digit : '+'.isDigit = true := isDigit_of_mem_renderChars listed
    exact absurd digit (by decide)
  rw [parse?, toList_render, ← digitsValue?_renderChars below]
  unfold charsValue?
  split
  · rename_i digits same
    exact absurd same (noPlus digits)
  · rfl

end Acceptors.Text.Numeral
