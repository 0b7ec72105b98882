import RangeTuner.Text.Encoded

/-! Texts as bytes. Main statement: decoding the bytes of a text gives its characters, without gaps.
-/

namespace RangeTuner.Text

/-- Behind any bytes, the bytes of a text are decoded as its characters, by induction on the text.
-/
theorem decodedFrom_utf8Encode (first : ByteArray) (before : Array (Option Char)) (s : List Char)
    : decodedFrom (first ++ s.utf8Encode) before first.size = before ++ (s.map some).toArray := by
  induction s generalizing first before with
  | nil =>
      rw [decodedFrom]
      simp
  | cons c s ih =>
      have size : [c].utf8Encode.size = c.utf8Size := by
        rw [List.utf8Encode_singleton, List.size_toByteArray, String.length_utf8EncodeChar]
      have here : (first ++ (c :: s).utf8Encode).utf8DecodeChar? first.size = some c := by
        rw [ByteArray.utf8DecodeChar?_eq_utf8DecodeChar?_extract]
        simp [ByteArray.extract_append_eq_right, List.utf8DecodeChar?_utf8Encode_cons]
      have inside : first.size < (first ++ (c :: s).utf8Encode).size := by
        rw [List.utf8Encode_cons, ByteArray.size_append, ByteArray.size_append, size]
        have := c.utf8Size_pos
        omega
      have next := ih (first ++ [c].utf8Encode) (before.push (some c))
      rw [ByteArray.size_append, size, ByteArray.append_assoc, ← List.utf8Encode_cons] at next
      rw [decodedFrom, if_pos inside, here]
      simpa using next

/-- Main statement: the bytes of a text are decoded as its characters. -/
theorem decoded_toUTF8 (text : String) : decoded text.toUTF8 = text.toList.map some := by
  have bytes : text.toUTF8 = ByteArray.empty ++ text.toList.utf8Encode := by
    simp
  rw [decoded, bytes]
  simpa using congrArg Array.toList (decodedFrom_utf8Encode ByteArray.empty #[] text.toList)

end RangeTuner.Text
