import Acceptors.Proofs.Minimality
import Acceptors.Proofs.RoundTrip

/-!
Contract: how long the text of an automaton is, and which automata are read back from a file.

Owns: the lines of a text counted by its bytes, the states of an automaton counted by its
lines, the limit on the counts of an automaton that was read, and its reading back from bytes.
Does not own: which automata are written.

Where every state is reached, every state but the first stands as a target on a line of its
own. A text that fits into a file therefore names fewer states than the limit on numerals.
-/

namespace Acceptors

/-- No text has more lines than bytes. -/
theorem Text.length_le_utf8ByteSize_unlines (lines : List String) :
    lines.length ≤ (Text.unlines lines).utf8ByteSize := by
  induction lines with
  | nil => exact Nat.zero_le _
  | cons head tail inductionHypothesis =>
      have feed : "\n".utf8ByteSize = 1 := by decide
      rw [Text.unlines, List.map_cons, String.join_cons, ← Text.unlines,
        String.utf8ByteSize_append, String.utf8ByteSize_append, feed, List.length_cons]
      omega

namespace Automaton

variable {automaton : Automaton} {start : Nat}

/-- A word that ends elsewhere ends with a step. -/
theorem exists_moves_of_read? {first last : Nat} {word : Word}
    (found : automaton.read? first word = some last) (moved : last ≠ first) :
    ∃ source symbol, last ∈ automaton.targets source symbol := by
  induction word generalizing first with
  | nil => exact absurd (Option.some.inj found).symm moved
  | cons symbol rest inductionHypothesis =>
      obtain ⟨next, moves, ends⟩ := Option.bind_eq_some_iff.mp found
      by_cases arrived : last = next
      · exact ⟨first, symbol, arrived ▸ mem_targets_of_successor? moves⟩
      · exact inductionHypothesis ends arrived

/-- Where every state is reached, there are almost as many departures as states. -/
theorem LeadsEverywhere.size_le (everywhere : automaton.LeadsEverywhere start)
    (unambiguous : automaton.Unambiguous) : automaton.size ≤ automaton.entries.length + 1 := by
  have counted : ((Finset.range automaton.size).erase start).card ≤
      automaton.entries.toFinset.card := by
    apply Finset.card_le_card_of_forall_subsingleton fun state entry => state ∈ entry.2
    · intro state listed
      obtain ⟨elsewhere, inside⟩ := Finset.mem_erase.mp listed
      obtain ⟨word, found⟩ := everywhere state (Finset.mem_range.mp inside)
      obtain ⟨source, symbol, moves⟩ := exists_moves_of_read? found elsewhere
      obtain ⟨targets, departs, belongs⟩ := mem_targets_iff.mp moves
      exact ⟨_, List.mem_toFinset.mpr
        (Std.ExtTreeMap.mem_toList_iff_getElem?_eq_some.mpr departs), belongs⟩
    · -- No departure accounts for two states, as it has one target.
      intro entry listed first firstBelongs second secondBelongs
      have departs :=
        Std.ExtTreeMap.mem_toList_iff_getElem?_eq_some.mp (List.mem_toFinset.mp listed)
      exact unambiguous entry.1.source entry.1.symbol first second
        (mem_targets_iff.mpr ⟨_, departs, firstBelongs.2⟩)
        (mem_targets_iff.mpr ⟨_, departs, secondBelongs.2⟩)
  have erased := Finset.pred_card_le_card_erase (s := Finset.range automaton.size) (a := start)
  have distinct := List.toFinset_card_le automaton.entries
  rw [Finset.card_range] at erased
  omega

/-- The text of an automaton is longer than the number of states that words reach. -/
theorem LeadsEverywhere.size_lt_utf8ByteSize_write (everywhere : automaton.LeadsEverywhere start)
    (unambiguous : automaton.Unambiguous) :
    automaton.size < (Encoding.write automaton).utf8ByteSize := by
  have bytes := Text.length_le_utf8ByteSize_unlines (Encoding.lines automaton)
  have lines : (Encoding.lines automaton).length = automaton.entries.length + 4 := by
    simp [Encoding.lines]
  have states := everywhere.size_le unambiguous
  rw [Encoding.write]
  omega

end Automaton

namespace Encoding

open Grammar
open Text.Numeral (limit)

variable {automaton : Automaton}

theorem alphabetSize_lt_of_readLines {lines : List String}
    (found : readLines lines = .ok automaton) : automaton.alphabetSize < limit := by
  obtain ⟨header, later, follows, describes⟩ := follows_of_readLines found
  rw [describes.alphabetSize_eq]
  cases follows.headerLines with
  | intro _ alphabetSize _ _ => exact Holds.lt_of_mem alphabetSize _ List.mem_cons_self

/-- The bytes of a text are read as the text is. -/
theorem readBytes_toUTF8 (text : String) : readBytes text.toUTF8 = read text := by
  simp only [readBytes, linesOfBytes, Text.decodedLines?_toUTF8, ok_bind, read]

theorem readBytes_write (size_lt : automaton.size < limit)
    (alphabetSize_lt : automaton.alphabetSize < limit) :
    readBytes (write automaton).toUTF8 = .ok automaton := by
  rw [readBytes_toUTF8, read, lines_write, readLines_lines size_lt alphabetSize_lt]

end Encoding

end Acceptors
