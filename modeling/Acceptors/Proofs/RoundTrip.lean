import Acceptors.Proofs.Bytes
import Acceptors.Proofs.Recognition

/-!
Contract: an automaton is read back from its text.

Owns: the lines of a written text, the automaton that they describe, and the equality of the
automaton read with the one written.
Does not own: texts that were not written, with blanks, blank lines or lines in other orders.

Only the bound on numerals limits the round trip. It is put on the two counts alone, since
every state and every symbol of an automaton is below its count.
-/

namespace Acceptors

/-! ## Lines of a text -/

/-- Lines that hold no line feed and end in no carriage return are found again in their text. -/
theorem Text.lines_unlines {lines : List String} (noFeed : ∀ line ∈ lines, '\n' ∉ line.toList)
    (noReturn : ∀ line ∈ lines, line.toList.getLast? ≠ some '\r') :
    Text.lines (Text.unlines lines) = lines := by
  have characters : (Text.unlines lines).toList =
      (lines.map String.toList).flatMap fun line => line ++ ['\n'] := by
    rw [Text.unlines, String.toList_join, List.flatMap_map, List.flatMap_map]
    exact congrArg (List.flatMap · lines) (funext fun _ => String.toList_append)
  have noFeedInside : ∀ line ∈ lines.map String.toList, '\n' ∉ line := by simpa using noFeed
  have noReturnAtEnd : ∀ line ∈ lines.map String.toList, line.getLast? ≠ some '\r' := by
    simpa using noReturn
  have divided := Text.splitLines_flatMap _ noFeedInside noReturnAtEnd
  rw [Text.lines, characters, divided, Text.map_ofList_toList]

namespace Encoding

open Grammar
open Text.Numeral (limit)

/-! ## Written lines -/

/-- Every line of an automaton is a line of numbers. -/
theorem exists_eq_numberLine {automaton : Automaton} {line : String}
    (listed : line ∈ lines automaton) : ∃ values, line = numberLine values := by
  simp only [lines, List.mem_cons, List.mem_map] at listed
  rcases listed with rfl | rfl | rfl | rfl | ⟨_, _, rfl⟩ <;> exact ⟨_, rfl⟩

theorem not_mem_numberLine {values : List Nat} {character : Char}
    (noDigit : character.isDigit = false) (noSpace : character ≠ ' ') :
    character ∉ (numberLine values).toList := by
  intro listed
  rcases isDigit_or_eq_space_of_mem_numberLine listed with digit | space
  · rw [noDigit] at digit
    cases digit
  · exact noSpace space

/-- The lines of an automaton are the lines of its text. -/
theorem lines_write (automaton : Automaton) : Text.lines (write automaton) = lines automaton := by
  apply Text.lines_unlines
  · intro line listed
    obtain ⟨values, rfl⟩ := exists_eq_numberLine listed
    exact not_mem_numberLine (by decide) (by decide)
  · intro line listed ends
    obtain ⟨values, rfl⟩ := exists_eq_numberLine listed
    exact not_mem_numberLine (by decide) (by decide) (List.mem_of_getLast? ends)

/-! ## Reading written lines -/

variable {automaton : Automaton}

/-- The line of an entry. -/
def entryLine (entry : Departure × StateSet) : String :=
  numberLine (entry.1.source :: entry.1.symbol :: entry.2.toList)

theorem entryLine_injective {left right : Departure × StateSet}
    (same : entryLine left = entryLine right) : left = right := by
  have values := numberLine_injective same
  obtain ⟨⟨leftSource, leftSymbol⟩, leftTargets⟩ := left
  obtain ⟨⟨rightSource, rightSymbol⟩, rightTargets⟩ := right
  simp only [List.cons.injEq] at values
  obtain ⟨rfl, rfl, targets⟩ := values
  rw [StateSet.toList_injective targets]

theorem holds_numberLine {values : List Nat} (below : ∀ value ∈ values, value < limit) :
    Holds (numberLine values) values :=
  numbers_eq_ok_iff.mp (numbers_numberLine 0 below)

/-- The header of the lines of an automaton. -/
def headerOf (automaton : Automaton) : Header :=
  ⟨automaton.size, automaton.alphabetSize, automaton.initial.toList, automaton.accepting.toList⟩

section Bounds

variable (size_lt : automaton.size < limit) (alphabetSize_lt : automaton.alphabetSize < limit)

include size_lt alphabetSize_lt

theorem holds_entryLine {entry : Departure × StateSet} (listed : entry ∈ automaton.entries) :
    Holds (entryLine entry) (entry.1.source :: entry.1.symbol :: entry.2.toList) := by
  have found := Std.ExtTreeMap.mem_toList_iff_getElem?_eq_some.mp listed
  apply holds_numberLine
  intro value isValue
  rcases List.mem_cons.mp isValue with rfl | later
  · exact Nat.lt_trans (automaton.valid.source_lt _ _ found) size_lt
  · rcases List.mem_cons.mp later with rfl | isTarget
    · exact Nat.lt_trans (automaton.valid.symbol_lt _ _ found) alphabetSize_lt
    · exact Nat.lt_trans (automaton.valid.target_lt _ _ found value isTarget) size_lt

/-- The lines of an automaton follow the grammar. -/
theorem follows_lines :
    Follows (lines automaton) (headerOf automaton) (automaton.entries.map entryLine) where
  headerLines := by
    have readable {states : StateSet} (inside : ∀ state ∈ states, state < automaton.size) :
        ∀ state ∈ states.toList, state < limit :=
      fun state listed => Nat.lt_trans (inside state listed) size_lt
    exact .intro (holds_numberLine (by simpa [headerOf] using size_lt))
      (holds_numberLine (by simpa [headerOf] using alphabetSize_lt))
      (holds_numberLine (readable automaton.valid.initial_lt))
      (holds_numberLine (readable automaton.valid.accepting_lt))
  size_pos := automaton.valid.size_pos
  alphabetSize_pos := automaton.valid.alphabetSize_pos
  initial_nonempty := fun none =>
    automaton.valid.initial_nonempty (StateSet.toList_injective none)
  initial_lt := automaton.valid.initial_lt
  accepting_lt := automaton.valid.accepting_lt
  usable := by
    intro content listed
    obtain ⟨entry, isEntry, rfl⟩ := List.mem_map.mp listed
    have found := Std.ExtTreeMap.mem_toList_iff_getElem?_eq_some.mp isEntry
    have nonempty : entry.2.toList ≠ [] := fun none =>
      automaton.valid.pruned _ _ found (StateSet.toList_injective none)
    exact Or.inr ⟨_, _, _, holds_entryLine size_lt alphabetSize_lt isEntry, nonempty,
      automaton.valid.source_lt _ _ found, automaton.valid.symbol_lt _ _ found,
      automaton.valid.target_lt _ _ found⟩

/-- The lines of an automaton describe it. -/
theorem describes_lines :
    Describes (headerOf automaton) (automaton.entries.map entryLine) automaton where
  size_eq := rfl
  alphabetSize_eq := rfl
  mem_initial_iff := fun _ => StateSet.mem_toList.symm
  mem_accepting_iff := fun _ => StateSet.mem_toList.symm
  successors_iff := by
    intro source symbol target
    constructor
    · rintro ⟨targets, found, belongs⟩
      have isEntry : (⟨source, symbol⟩, targets) ∈ automaton.entries :=
        Std.ExtTreeMap.mem_toList_iff_getElem?_eq_some.mpr found
      exact ⟨_, List.mem_map.mpr ⟨_, isEntry, rfl⟩, targets.toList,
        holds_entryLine size_lt alphabetSize_lt isEntry, belongs⟩
    · rintro ⟨_, listed, targets, holds, belongs⟩
      obtain ⟨⟨departure, entryTargets⟩, isEntry, rfl⟩ := List.mem_map.mp listed
      cases holds.unique (holds_entryLine size_lt alphabetSize_lt isEntry)
      exact ⟨entryTargets, Std.ExtTreeMap.mem_toList_iff_getElem?_eq_some.mp isEntry, belongs⟩

theorem readLines_lines : readLines (lines automaton) = .ok automaton :=
  readLines_of_describes (follows_lines size_lt alphabetSize_lt)
    (describes_lines size_lt alphabetSize_lt)

end Bounds

/-- Automata with the same text are equal, also where the text is too large to be read. -/
theorem write_injective {left right : Automaton} (same : write left = write right) :
    left = right := by
  have sameLines : lines left = lines right := by
    rw [← lines_write, ← lines_write, same]
  simp only [lines, List.cons.injEq] at sameLines
  obtain ⟨sizeLine, alphabetSizeLine, initialLine, acceptingLine, entryLines⟩ := sameLines
  have sizes := List.singleton_inj.mp (numberLine_injective sizeLine)
  have alphabetSizes := List.singleton_inj.mp (numberLine_injective alphabetSizeLine)
  have initials := StateSet.toList_injective (numberLine_injective initialLine)
  have acceptings := StateSet.toList_injective (numberLine_injective acceptingLine)
  have entries : left.entries = right.entries :=
    (List.map_inj_right fun _ _ => entryLine_injective).mp entryLines
  have transitions := Std.ExtTreeMap.toList_inj.mp entries
  obtain ⟨⟨_, _, _, _, _⟩, _⟩ := left
  obtain ⟨⟨_, _, _, _, _⟩, _⟩ := right
  simp_all

end Encoding

/-- An automaton whose counts can be read is read back from its text and from the UTF-8 bytes
of its text, and no other automaton has the same text. -/
theorem Encoding.read_write (automaton : Automaton) (size_lt : automaton.size < UInt64.size)
    (alphabetSize_lt : automaton.alphabetSize < UInt64.size) :
    read (write automaton) = .ok automaton ∧
      readBytes (write automaton).toUTF8 = .ok automaton ∧
        ∀ other : Automaton, write other = write automaton → other = automaton := by
  have linesRead : readLines (lines automaton) = .ok automaton :=
    readLines_lines size_lt alphabetSize_lt
  refine ⟨?_, ?_, fun _ => write_injective⟩
  · rw [read, lines_write, linesRead]
  · simp only [readBytes, linesOfBytes, Text.decodedLines?_toUTF8, lines_write, bind, Except.bind,
      linesRead]

/-- As many states and symbols as can be read, with steps from and to the last state on the last
symbol and with no accepting state, so that the fourth line is empty. -/
def widest : Automaton where
  toDraft := .ofEdges 18446744073709551615 18446744073709551615
    (.ofList [18446744073709551614, 0]) ∅
    [⟨18446744073709551614, 18446744073709551614, 0⟩, ⟨0, 0, 18446744073709551614⟩,
      ⟨18446744073709551614, 18446744073709551614, 18446744073709551614⟩]
  valid := Draft.valid_ofEdges (by decide) (by decide)
    (StateSet.ne_empty_iff.mpr ⟨0, by simp⟩) (by simp) (by simp) (by simp)

theorem widest_read_write : widest.size < UInt64.size ∧ widest.alphabetSize < UInt64.size ∧
    Encoding.write widest = "18446744073709551615\n18446744073709551615\n" ++
      "0 18446744073709551614\n\n0 0 18446744073709551614\n" ++
        "18446744073709551614 18446744073709551614 0 18446744073709551614\n" ∧
    Encoding.read (Encoding.write widest) = .ok widest ∧
      Encoding.readBytes (Encoding.write widest).toUTF8 = .ok widest ∧
        ∀ other : Automaton, Encoding.write other = Encoding.write widest → other = widest := by
  have size_lt : widest.size < UInt64.size := by decide +kernel
  have alphabetSize_lt : widest.alphabetSize < UInt64.size := by decide +kernel
  exact ⟨size_lt, alphabetSize_lt, by decide +kernel,
    Encoding.read_write widest size_lt alphabetSize_lt⟩

end Acceptors
