/-! Whole numbers as decimal digits, and decimal digits as whole numbers. -/

namespace RangeTuner.Decimal

/-- The decimal digits of a whole number, without leading zeros; zero has one digit. -/
def digits (n : Nat) : List Char :=
  Nat.toDigits 10 n

/-- The value of a run of the digits 0 to 9, read after `value`. -/
def valueFrom (value : Nat) (ds : List Char) : Nat :=
  ds.foldl (fun value d => 10 * value + (d.toNat - '0'.toNat)) value

/-- The value of a run of the digits 0 to 9. -/
def value (ds : List Char) : Nat :=
  valueFrom 0 ds

/-- The text widened to `width` characters by putting the filler in front. -/
def padStart (width : Nat) (filler : Char) (s : List Char) : List Char :=
  List.replicate (width - s.length) filler ++ s

/-- The text widened to `width` characters by blanks at its end. -/
def padEnd (width : Nat) (s : List Char) : List Char :=
  s ++ List.replicate (width - s.length) ' '

end RangeTuner.Decimal
