/-!
Contract: a deterministic source of random values.

Owns: the generator, its raw 64-bit draws, and the coins, fractions and bounded
numbers that are made of them.
Does not own: what is built from the values.

A raw draw steps the state by a constant and folds the double-width product of the
new state and its mask. Fractions and bounded numbers reject some raw draws, so
that the accepted ones are spread evenly; the search for an accepted draw is
limited to as many draws as the generator has states.
-/

namespace Acceptors.Random

structure Generator where
  state : UInt64
deriving DecidableEq, Repr

abbrev Draw := StateM Generator

namespace Generator

/-- The distance between consecutive states. -/
def increment : UInt64 := 0x2d358dccaa6c78a5

def mask : UInt64 := 0x8bb84b93962eacc9

def advance (generator : Generator) : Generator := ⟨generator.state + increment⟩

/-- The exclusive or of the two halves of a double-width number. -/
def fold (number : Nat) : UInt64 :=
  UInt64.ofNat number ^^^ UInt64.ofNat (number >>> 64)

/-- The value that a state yields. -/
def output (state : UInt64) : UInt64 :=
  fold (state.toNat * (state ^^^ mask).toNat)

/-- How often a draw is repeated at most. -/
def attempts : Nat := UInt64.size

end Generator

def raw : Draw UInt64 := fun generator =>
  (Generator.output generator.advance.state, generator.advance)

/-- The first raw draw that is accepted, if one is within the given number of attempts. -/
def firstAccepted {Value : Type} (accept : UInt64 → Option Value) : Nat → Draw (Option Value)
  | 0 => pure none
  | attempts + 1 => do
      match accept (← raw) with
      | some value => return some value
      | none => firstAccepted accept attempts

/-- A coin: an even draw is heads. -/
def coin : Draw Bool := do
  return (← raw) % 2 == 0

/-- The upper 63 bits of a draw as a fraction of one, unless rounding makes it one. -/
def fractionOf (value : UInt64) : Option Float :=
  let fraction := (value >>> 1).toFloat.scaleB (-63)
  if fraction < 1.0 then some fraction else none

/-- Whether a drawn fraction is below a density. -/
def chance (density : Float) : Draw Bool := do
  return (← firstAccepted fractionOf Generator.attempts).any (· < density)

/-- Draws whose scaled lower half is below this number are rejected. -/
def rejected (count : Nat) : Nat := (UInt64.size - count) % count

/-- The upper half of a draw scaled by the count, unless the lower half is too small. -/
def offsetOf (count : Nat) (value : UInt64) : Option Nat :=
  let scaled := value.toNat * count
  if scaled % UInt64.size < rejected count then none else some (scaled / UInt64.size)

/-- A number below the count, which is positive. -/
def below (count : Nat) : Draw Nat := do
  return (← firstAccepted (offsetOf count) Generator.attempts).getD 0

end Acceptors.Random
