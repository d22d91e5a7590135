import Acceptors.Text.Lines

/-!
Contract: the lines of the bytes of a text.

Owns: the division into lines before and after an encoding of every element, and the
agreement of the lines of a text with the decoded lines of its UTF-8 bytes.
Does not own: bytes that are no UTF-8.

Lines are found among bytes without decoding them. This is right because in UTF-8 the
byte of an ASCII character occurs in the encoding of that character only.
-/

namespace Acceptors.Text

/-! ## Division before and after an encoding -/

section Encoding

variable {Element Code : Type} {encode : Element → List Code}

/-- The code stands for the mark and occurs in the encoding of nothing else. -/
structure Marks (encode : Element → List Code) (mark : Element) (code : Code) : Prop where
  encode_mark : encode mark = [code]
  eq_mark_of_mem : ∀ element, code ∈ encode element → element = mark

theorem isEmpty_flatMap (nonempty : ∀ element, encode element ≠ []) (elements : List Element) :
    (elements.flatMap encode).isEmpty = elements.isEmpty := by
  cases elements with
  | nil => rfl
  | cons head tail => simp [nonempty head]

/-- Elements at which nothing is divided belong to the first piece. -/
theorem splitOnP_append_of_forall_mem {divides : Element → Bool} {before : List Element}
    (undivided : ∀ element ∈ before, divides element = false) (behind : List Element) :
    (before ++ behind).splitOnP divides =
      (behind.splitOnP divides).modifyHead fun piece => before ++ piece := by
  induction before with
  | nil =>
      show behind.splitOnP divides = _
      cases behind.splitOnP divides <;> rfl
  | cons head tail inductionHypothesis =>
      have headKeeps := undivided head List.mem_cons_self
      have rest := inductionHypothesis fun element later =>
        undivided element (List.mem_cons_of_mem _ later)
      rw [List.cons_append, List.splitOnP_cons_eq_if_modifyHead, if_neg (by simp [headKeeps]), rest]
      cases behind.splitOnP divides <;> rfl

variable {mark : Element} {code : Code}

/-- The last code tells whether the last element is the mark. -/
theorem getLast?_flatMap_eq_some_iff (marks : Marks encode mark code)
    (nonempty : ∀ element, encode element ≠ []) (elements : List Element) :
    (elements.flatMap encode).getLast? = some code ↔ elements.getLast? = some mark := by
  rcases List.eq_nil_or_concat elements with rfl | ⟨before, last, rfl⟩
  · simp
  · obtain ⟨final, ends⟩ := Option.isSome_iff_exists.mp (List.getLast?_isSome.mpr (nonempty last))
    rw [List.concat_eq_append, List.flatMap_append, List.flatMap_singleton, List.getLast?_append,
      List.getLast?_concat, ends, Option.some_or]
    constructor
    · intro found
      have listed : code ∈ encode last := List.mem_of_getLast? (found ▸ ends)
      exact congrArg some (marks.eq_mark_of_mem last listed)
    · intro found
      rw [Option.some.inj found, marks.encode_mark] at ends
      exact ends.symm

variable [DecidableEq Element] [DecidableEq Code]

/-- A sequence is divided at the same places before and after it is encoded. -/
theorem splitOnP_flatMap (marks : Marks encode mark code) (elements : List Element) :
    (elements.flatMap encode).splitOnP (· = code) =
      (elements.splitOnP (· = mark)).map fun piece => piece.flatMap encode := by
  induction elements with
  | nil => rfl
  | cons head tail inductionHypothesis =>
      rw [List.flatMap_cons, List.splitOnP_cons_eq_if_modifyHead]
      by_cases isMark : head = mark
      · rw [isMark, marks.encode_mark, List.singleton_append, List.splitOnP_cons_eq_if_modifyHead,
          if_pos (decide_eq_true rfl), if_pos (decide_eq_true rfl), inductionHypothesis]
        rfl
      · have undivided : ∀ other ∈ encode head, decide (other = code) = false := by
          intro other listed
          refine decide_eq_false fun same => isMark ?_
          exact marks.eq_mark_of_mem head (same ▸ listed)
        rw [if_neg (by simp [isMark]), splitOnP_append_of_forall_mem undivided,
          inductionHypothesis]
        cases tail.splitOnP (· = mark) <;> rfl

/-- The code of a carriage return ends a line whenever the carriage return does. -/
theorem dropReturn_flatMap (marks : Marks encode mark code)
    (nonempty : ∀ element, encode element ≠ []) (line : List Element) :
    dropReturn code (line.flatMap encode) = (dropReturn mark line).flatMap encode := by
  unfold dropReturn
  by_cases ends : line.getLast? = some mark
  · rw [if_pos ends, if_pos ((getLast?_flatMap_eq_some_iff marks nonempty line).mpr ends)]
    obtain ⟨before, rfl⟩ := List.getLast?_eq_some_iff.mp ends
    rw [List.flatMap_append, List.flatMap_singleton, marks.encode_mark, List.dropLast_concat,
      List.dropLast_concat]
  · rw [if_neg ends, if_neg fun found =>
      ends ((getLast?_flatMap_eq_some_iff marks nonempty line).mp found)]

/-- The piece behind the last line feed is a line unless it is empty. -/
theorem splitLines_eq_filter (lineFeed carriageReturn : Element) (elements : List Element) :
    splitLines lineFeed carriageReturn elements =
      (elements.splitOnP (· = lineFeed)).dropLast.map (dropReturn carriageReturn) ++
        (elements.splitOnP (· = lineFeed)).getLast?.toList.filter fun piece => !piece.isEmpty := by
  show _ ++ _ = _ ++ _
  congr 1
  cases (elements.splitOnP (· = lineFeed)).getLast? with
  | none => rfl
  | some last => cases last <;> rfl

/-- The lines of an encoded sequence are the encoded lines of the sequence. -/
theorem splitLines_flatMap_encode {lineFeed carriageReturn : Element} {feedCode returnCode : Code}
    (feed : Marks encode lineFeed feedCode) (carriage : Marks encode carriageReturn returnCode)
    (nonempty : ∀ element, encode element ≠ []) (elements : List Element) :
    splitLines feedCode returnCode (elements.flatMap encode) =
      (splitLines lineFeed carriageReturn elements).map fun line => line.flatMap encode := by
  rw [splitLines_eq_filter, splitLines_eq_filter, splitOnP_flatMap feed, List.map_append,
    ← List.map_dropLast, List.map_map, List.map_map, List.getLast?_map]
  congr 1
  · apply List.map_congr_left
    intro line _
    exact dropReturn_flatMap carriage nonempty line
  · cases (elements.splitOnP (· = lineFeed)).getLast? with
    | none => rfl
    | some last =>
        have same := isEmpty_flatMap nonempty last
        cases filled : last.isEmpty <;> simp [same, filled]

end Encoding

/-! ## UTF-8 -/

/-- An ASCII character is its own byte. -/
theorem utf8EncodeChar_of_ascii {character : Char} (ascii : character.toNat < 128) :
    String.utf8EncodeChar character = [UInt8.ofNat character.toNat] := by
  rw [String.utf8EncodeChar.eq_1]
  exact if_pos (Nat.le_of_lt_succ ascii)

/-- No byte of any other character is below 128. -/
theorem le_toNat_of_mem_utf8EncodeChar {character : Char} (wide : 128 ≤ character.toNat)
    {byte : UInt8} (listed : byte ∈ String.utf8EncodeChar character) : 128 ≤ byte.toNat := by
  have notAscii : ¬ character.val.toNat ≤ 127 := Nat.not_le.mpr wide
  rw [String.utf8EncodeChar.eq_1, if_neg notAscii] at listed
  split at listed
  · simp only [List.mem_cons, List.not_mem_nil, or_false] at listed
    rcases listed with rfl | rfl <;> rw [UInt8.toNat_ofNat'] <;> omega
  · split at listed
    · simp only [List.mem_cons, List.not_mem_nil, or_false] at listed
      rcases listed with rfl | rfl | rfl <;> rw [UInt8.toNat_ofNat'] <;> omega
    · simp only [List.mem_cons, List.not_mem_nil, or_false] at listed
      rcases listed with rfl | rfl | rfl | rfl <;> rw [UInt8.toNat_ofNat'] <;> omega

/-- The byte of an ASCII character occurs in the encoding of that character only. -/
theorem marks_utf8EncodeChar {character : Char} (ascii : character.toNat < 128) :
    Marks String.utf8EncodeChar character (UInt8.ofNat character.toNat) where
  encode_mark := utf8EncodeChar_of_ascii ascii
  eq_mark_of_mem := by
    intro other listed
    have value : (UInt8.ofNat character.toNat).toNat = character.toNat := by
      rw [UInt8.toNat_ofNat']
      omega
    by_cases otherAscii : other.toNat < 128
    · rw [utf8EncodeChar_of_ascii otherAscii, List.mem_singleton] at listed
      have otherValue : (UInt8.ofNat other.toNat).toNat = other.toNat := by
        rw [UInt8.toNat_ofNat']
        omega
      exact Char.toNat_inj.mp (by rw [← otherValue, ← listed, value])
    · have high := le_toNat_of_mem_utf8EncodeChar (Nat.le_of_not_lt otherAscii) listed
      omega

theorem toByteArray_flatMap_toList (characters : List Char) :
    (characters.flatMap String.utf8EncodeChar).toByteArray =
      (String.ofList characters).toUTF8 := by
  rw [String.toUTF8_eq_toByteArray, ← String.utf8Encode_toList, String.toList_ofList,
    List.utf8Encode]

theorem data_toUTF8 (text : String) :
    text.toUTF8.data.toList = text.toList.flatMap String.utf8EncodeChar := by
  rw [String.toUTF8_eq_toByteArray, ← String.utf8Encode_toList, List.utf8Encode,
    List.toList_data_toByteArray]

/-- The lines of the bytes of a text are the bytes of its lines. -/
theorem byteLines_toUTF8 (text : String) :
    byteLines text.toUTF8 = (lines text).map String.toUTF8 := by
  have feed : Marks String.utf8EncodeChar '\n' 0x0A := marks_utf8EncodeChar (by decide)
  have carriage : Marks String.utf8EncodeChar '\r' 0x0D := marks_utf8EncodeChar (by decide)
  have divided := splitLines_flatMap_encode feed carriage (fun _ => String.utf8EncodeChar_ne_nil)
    text.toList
  rw [byteLines, lines, data_toUTF8, divided, List.map_map, List.map_map]
  apply List.map_congr_left
  intro line _
  exact toByteArray_flatMap_toList line

theorem fromUTF8?_toUTF8 (text : String) : String.fromUTF8? text.toUTF8 = some text := by
  have valid : text.toUTF8.IsValidUTF8 := text.isValidUTF8
  rw [String.fromUTF8?, dif_pos valid]
  rfl

/-- The bytes of a text are decoded to the lines of the text. -/
theorem decodedLines?_toUTF8 (text : String) : decodedLines? text.toUTF8 = some (lines text) := by
  have decoded : String.fromUTF8? ∘ String.toUTF8 = some := funext fromUTF8?_toUTF8
  rw [decodedLines?, byteLines_toUTF8, List.mapM_map, decoded]
  have kept : (lines text).mapM some = some ((lines text).map id) := List.mapM_pure
  rw [kept, List.map_id]

end Acceptors.Text
