/-! Digests of sources and specifications: a 64-bit hash over the bytes of a text, each byte
mixed in by an exclusive or and a multiplication by an odd constant.
-/

namespace RangeTuner.Digest

/-- The hash of no bytes. -/
def start : UInt64 :=
  0xcbf29ce484222325

/-- The multiplier; it is odd, so multiplying by it loses nothing. -/
def multiplier : UInt64 :=
  0x100000001b3

/-- The hash after one more byte. -/
def mix (hash : UInt64) (byte : UInt8) : UInt64 :=
  (hash ^^^ byte.toUInt64) * multiplier

/-- The hash of a list of bytes. -/
def hash (bytes : List UInt8) : UInt64 :=
  bytes.foldl mix start

/-- One hexadecimal digit, small letters above nine. -/
def hexDigit (n : Nat) : Char :=
  Nat.digitChar (n % 16)

/-- The lowest hexadecimal digits of a number, `count` of them, the highest first. -/
def hexDigits : Nat → Nat → List Char
  | 0, _ => []
  | count + 1, n => hexDigits count (n / 16) ++ [hexDigit n]

/-- The text of a digest: the algorithm's tag and sixteen hexadecimal digits. -/
def ofBytes (bytes : List UInt8) : String :=
  .ofList ("fnv1a64:".toList ++ hexDigits 16 (hash bytes).toNat)

/-- The digest of a text, over its UTF-8 bytes. -/
def ofText (text : String) : String :=
  ofBytes text.toUTF8.toList

end RangeTuner.Digest
