/-! Bytes as the characters that they encode, where not all of them have to. -/

namespace RangeTuner.Text

/-- The characters encoded from an index on, behind those before it: a byte that starts no
character is passed over alone and leaves a gap.
-/
def decodedFrom (bytes : ByteArray) (before : Array (Option Char)) (i : Nat)
    : Array (Option Char) :=
  if i < bytes.size then
    match bytes.utf8DecodeChar? i with
    | some c => decodedFrom bytes (before.push (some c)) (i + c.utf8Size)
    | none => decodedFrom bytes (before.push none) (i + 1)
  else before
termination_by bytes.size - i
decreasing_by
  · have := c.utf8Size_pos
    omega
  · omega

/-- The characters that bytes encode, with a gap for each byte that is part of none. -/
def decoded (bytes : ByteArray) : List (Option Char) :=
  (decodedFrom bytes #[] 0).toList

end RangeTuner.Text
