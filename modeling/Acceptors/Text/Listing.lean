/-!
Contract: lists inside a line of text.

Owns: the one layout of a bracketed list, items separated by a comma and a blank.
Does not own: the text of the items or the choice of brackets.
-/

namespace Acceptors.Text

/-- Items separated by a comma and a blank, between an opening and a closing bracket. -/
def listing (opening closing : String) (items : List String) : String :=
  opening ++ ", ".intercalate items ++ closing

/-- Numbers in square brackets. -/
def bracketed (numbers : List Nat) : String :=
  listing "[" "]" (numbers.map toString)

end Acceptors.Text
