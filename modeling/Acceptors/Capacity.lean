/-!
Contract: how many items of one kind find room next to each other.

Owns: the bytes that an item of a table or of a word takes, and the most items for which room
can be made at once.
Does not own: who makes room for what, and what becomes of a request that has none.

Addresses have 64 bits, and a stretch of memory takes fewer than half of them. Only what is
counted before its first item is there asks for room at once. What grows item by item is not
bounded here, and neither is how much memory a machine has.
-/

namespace Acceptors

/-- The bytes of a state, a symbol or the number of a block. -/
def numberWidth : Nat := 8

/-- The bytes of a number that may be missing. Whether it is there takes as much room again,
for alignment. -/
def optionWidth : Nat := 16

/-- The bytes that a list takes in a table of lists: its address, its room and its length. -/
def listWidth : Nat := 24

/-- The most items of a width that find room in one stretch of memory. -/
def capacity (width : Nat) : Nat := (UInt64.size / 2 - 1) / width

end Acceptors
