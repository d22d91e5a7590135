/-!
Contract: the lines of a text and of a sequence of bytes.

Owns: the division into lines, for characters and for bytes alike, the decoding
of bytes line by line, and the text of given lines.
Does not own: what stands on a line.

A line ends at a line feed, and a carriage return right before the line feed
belongs to the line end. What stands behind the last line feed is a line of its own
unless it is empty.
-/

namespace Acceptors.Text

section

variable {Element : Type} [DecidableEq Element]

/-- A line without the carriage return that may end it. -/
def dropReturn (carriageReturn : Element) (line : List Element) : List Element :=
  if line.getLast? = some carriageReturn then line.dropLast else line

/-- The lines of a sequence in which `lineFeed` ends a line. -/
def splitLines (lineFeed carriageReturn : Element) (elements : List Element) :
    List (List Element) :=
  let pieces := elements.splitOnP (· = lineFeed)
  pieces.dropLast.map (dropReturn carriageReturn) ++
    match pieces.getLast? with
    | none | some [] => []
    | some last => [last]

/-- Lines that hold no line feed and end in no carriage return are found again. -/
theorem splitLines_flatMap {lineFeed carriageReturn : Element} (lines : List (List Element))
    (noFeed : ∀ line ∈ lines, lineFeed ∉ line)
    (noReturn : ∀ line ∈ lines, line.getLast? ≠ some carriageReturn) :
    splitLines lineFeed carriageReturn (lines.flatMap fun line => line ++ [lineFeed]) = lines := by
  have pieces : (lines.flatMap fun line => line ++ [lineFeed]).splitOnP (· = lineFeed) =
      lines ++ [[]] := by
    induction lines with
    | nil => rfl
    | cons head tail inductionHypothesis =>
        have rest := inductionHypothesis
          (fun line listed => noFeed line (List.mem_cons_of_mem _ listed))
          (fun line listed => noReturn line (List.mem_cons_of_mem _ listed))
        have headFeed : ∀ element ∈ head, decide (element = lineFeed) = false := by
          intro element listed
          refine decide_eq_false fun same => noFeed head List.mem_cons_self ?_
          exact same ▸ listed
        rw [List.flatMap_cons, List.append_assoc, List.singleton_append,
          List.splitOnP_append_cons_of_forall_mem headFeed lineFeed (by simp), rest]
        rfl
  have kept : lines.map (dropReturn carriageReturn) = lines := by
    have same : ∀ line ∈ lines, dropReturn carriageReturn line = id line :=
      fun line listed => if_neg (noReturn line listed)
    rw [List.map_congr_left same, List.map_id]
  simp [splitLines, pieces, kept]

end

def lines (text : String) : List String :=
  (splitLines '\n' '\r' text.toList).map String.ofList

/-- The lines of a byte sequence, not yet decoded. -/
def byteLines (bytes : ByteArray) : List ByteArray :=
  (splitLines 0x0A 0x0D bytes.data.toList).map List.toByteArray

/-- The lines of a byte sequence, each decoded on its own, if all of them are UTF-8. -/
def decodedLines? (bytes : ByteArray) : Option (List String) :=
  (byteLines bytes).mapM String.fromUTF8?

/-- The text of given lines, each ended by a line feed. -/
def unlines (lines : List String) : String :=
  String.join (lines.map fun line => line ++ "\n")

end Acceptors.Text
