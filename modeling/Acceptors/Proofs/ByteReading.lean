import Acceptors.Proofs.Bytes
import Acceptors.Proofs.FirstFault

/-!
Contract: reading bytes is reading the text that they encode.

Owns: bytes of which every line is UTF-8, and the result of reading any bytes.
Does not own: the lines of a text and of its bytes, and what lines are refused for.

Bytes are decoded line by line, and a text is divided into lines after it has been decoded
as a whole. Lines that are decoded one by one make up a text, because a line feed and a
carriage return encode themselves. So a line that is not UTF-8 is missed by neither, and
wherever it stands it is reported before any line is read.
-/

namespace Acceptors

namespace Text

/-! ## Encodings put together from their lines -/

section Encoding

variable {Element Code : Type} {encode : Element → List Code}

/-- The codes encode some elements. -/
def Encoded (encode : Element → List Code) (codes : List Code) : Prop :=
  ∃ elements : List Element, elements.flatMap encode = codes

theorem encoded_nil : Encoded encode [] := ⟨[], rfl⟩

theorem Encoded.append {left right : List Code} (leftEncoded : Encoded encode left)
    (rightEncoded : Encoded encode right) : Encoded encode (left ++ right) := by
  obtain ⟨before, rfl⟩ := leftEncoded
  obtain ⟨behind, rfl⟩ := rightEncoded
  exact ⟨before ++ behind, List.flatMap_append⟩

theorem Marks.encoded {mark : Element} {code : Code} (marks : Marks encode mark code) :
    Encoded encode [code] :=
  ⟨[mark], by rw [List.flatMap_singleton, marks.encode_mark]⟩

theorem encoded_intercalate {separator : List Code} (between : Encoded encode separator)
    (pieces : List (List Code)) (encoded : ∀ piece ∈ pieces, Encoded encode piece) :
    Encoded encode (separator.intercalate pieces) := by
  induction pieces with
  | nil => exact encoded_nil
  | cons head tail inductionHypothesis =>
      have first := encoded head List.mem_cons_self
      have others := inductionHypothesis fun piece later =>
        encoded piece (List.mem_cons_of_mem _ later)
      cases tail with
      | nil =>
          rw [List.intercalate_singleton]
          exact first
      | cons next rest =>
          rw [List.intercalate_cons_cons]
          exact (first.append between).append others

variable [DecidableEq Code]

/-- Codes whose pieces between line feeds are encodings are an encoding. -/
theorem encoded_of_splitOnP {feedCode : Code} (feed : Encoded encode [feedCode])
    {codes : List Code}
    (encoded : ∀ piece ∈ codes.splitOnP (· = feedCode), Encoded encode piece) :
    Encoded encode codes := by
  have pieces : codes.splitOnP (· = feedCode) = codes.splitOn feedCode := by
    rw [List.splitOn_eq_splitOnP]
    rfl
  have whole := encoded_intercalate feed _ encoded
  rwa [pieces, List.intercalate_splitOn] at whole

theorem encoded_of_dropReturn {returnCode : Code} (carriage : Encoded encode [returnCode])
    {line : List Code} (encoded : Encoded encode (dropReturn returnCode line)) :
    Encoded encode line := by
  unfold dropReturn at encoded
  by_cases ends : line.getLast? = some returnCode
  · rw [if_pos ends] at encoded
    obtain ⟨before, rfl⟩ := List.getLast?_eq_some_iff.mp ends
    rw [List.dropLast_concat] at encoded
    exact encoded.append carriage
  · rwa [if_neg ends] at encoded

/-- Codes whose lines are encodings are an encoding. -/
theorem encoded_of_splitLines {feedCode returnCode : Code} (feed : Encoded encode [feedCode])
    (carriage : Encoded encode [returnCode]) {codes : List Code}
    (encoded : ∀ line ∈ splitLines feedCode returnCode codes, Encoded encode line) :
    Encoded encode codes := by
  rw [splitLines_eq_filter] at encoded
  apply encoded_of_splitOnP feed
  intro piece listed
  have someLast := List.dropLast_append_getLast (List.splitOnP_ne_nil (· = feedCode) codes)
  rw [← someLast, List.mem_append, List.mem_singleton] at listed
  rcases listed with ended | last
  · exact encoded_of_dropReturn carriage
      (encoded _ (List.mem_append_left _ (List.mem_map_of_mem ended)))
  · -- What stands behind the last line feed is no line if it is empty.
    by_cases empty : piece = []
    · rw [empty]
      exact encoded_nil
    · refine encoded piece (List.mem_append_right _ ?_)
      rw [List.getLast?_eq_getLast_of_ne_nil (List.splitOnP_ne_nil _ codes), ← last]
      simp [empty]

end Encoding

/-! ## UTF-8 -/

theorem fromUTF8?_eq_some_iff {bytes : ByteArray} {text : String} :
    String.fromUTF8? bytes = some text ↔ text.toUTF8 = bytes := by
  refine ⟨fun decoded => ?_, fun same => same ▸ fromUTF8?_toUTF8 text⟩
  unfold String.fromUTF8? at decoded
  split at decoded
  · cases decoded
    rfl
  · cases decoded

/-- Bytes encode characters exactly if they are the bytes of a text. -/
theorem encoded_utf8EncodeChar_iff {bytes : ByteArray} :
    Encoded String.utf8EncodeChar bytes.data.toList ↔ ∃ text : String, text.toUTF8 = bytes := by
  refine ⟨fun ⟨characters, encode⟩ => ?_, fun ⟨text, same⟩ => ?_⟩
  · refine ⟨String.ofList characters, ByteArray.ext (Array.ext' ?_)⟩
    rw [data_toUTF8, String.toList_ofList, encode]
  · rw [← same, data_toUTF8]
    exact ⟨text.toList, rfl⟩

theorem exists_some_of_mapM {First Second : Type} {step : First → Option Second}
    {items : List First} {results : List Second} (found : items.mapM step = some results) :
    ∀ item ∈ items, ∃ result, step item = some result := by
  induction items generalizing results with
  | nil => exact fun _ listed => absurd listed List.not_mem_nil
  | cons head tail inductionHypothesis =>
      rw [List.mapM_cons, Option.bind_eq_bind, Option.bind_eq_some_iff] at found
      obtain ⟨first, headFound, rest⟩ := found
      rw [Option.bind_eq_bind, Option.bind_eq_some_iff] at rest
      obtain ⟨others, tailFound, _⟩ := rest
      exact List.forall_mem_cons.mpr ⟨⟨first, headFound⟩, inductionHypothesis tailFound⟩

/-- Bytes of which every line is UTF-8 are the bytes of a text. -/
theorem exists_toUTF8_of_decodedLines? {bytes : ByteArray} {decoded : List String}
    (found : decodedLines? bytes = some decoded) : ∃ text : String, text.toUTF8 = bytes := by
  have feed : Marks String.utf8EncodeChar '\n' 0x0A := marks_utf8EncodeChar (by decide)
  have carriage : Marks String.utf8EncodeChar '\r' 0x0D := marks_utf8EncodeChar (by decide)
  rw [← encoded_utf8EncodeChar_iff]
  apply encoded_of_splitLines feed.encoded carriage.encoded
  intro line listed
  obtain ⟨text, lineDecoded⟩ := exists_some_of_mapM found line.toByteArray
    (List.mem_map_of_mem listed)
  have encoded := encoded_utf8EncodeChar_iff.mpr ⟨text, fromUTF8?_eq_some_iff.mp lineDecoded⟩
  rwa [List.toList_data_toByteArray] at encoded

end Text

namespace Encoding

variable {bytes : ByteArray}

theorem readBytes_of_toUTF8 {text : String} (same : text.toUTF8 = bytes) :
    readBytes bytes = read text := by
  rw [← same, readBytes, linesOfBytes, Text.decodedLines?_toUTF8]
  rfl

/-- Bytes that are no text are refused whatever stands on the lines before the fault. -/
theorem readBytes_of_not_toUTF8 (noText : ∀ text : String, text.toUTF8 ≠ bytes) :
    readBytes bytes = .error .notUnicode := by
  rw [readBytes, linesOfBytes]
  cases found : Text.decodedLines? bytes with
  | none => rfl
  | some decoded =>
      obtain ⟨text, same⟩ := Text.exists_toUTF8_of_decodedLines? found
      exact absurd same (noText text)

/-- Reading bytes returns what reading the text that they encode returns, and it is never
said of a text that it is none. All other bytes are refused as no text. -/
theorem readBytes_eq_read (bytes : ByteArray) :
    (∀ text : String, text.toUTF8 = bytes → readBytes bytes = read text) ∧
      (readBytes bytes = .error .notUnicode ↔ ∀ text : String, text.toUTF8 ≠ bytes) := by
  refine ⟨fun text => readBytes_of_toUTF8, fun refused text same => ?_, readBytes_of_not_toUTF8⟩
  rw [readBytes_of_toUTF8 same] at refused
  exact readLines_ne_notUnicode refused

/-- A fault on the second line comes before the first line, which is no number. -/
example : readBytes ⟨#[0x78, 0x0A, 0xFF]⟩ = .error .notUnicode := by decide +kernel

end Encoding

end Acceptors
