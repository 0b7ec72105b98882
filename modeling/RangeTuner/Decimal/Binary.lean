/-! Doubles as exact numbers. A finite double is a sign and `significand * 2 ^ exponent`; the
decimal forms of the sibling modules are computed from that pair in whole numbers.
-/

namespace RangeTuner.Decimal

/-- The magnitude `significand * 2 ^ exponent`. -/
structure Binary where
  significand : Nat
  exponent : Int
deriving DecidableEq, Repr

/-- What a double stands for. A negative zero is a finite double with a sign. -/
inductive Number where
  | undefined
  | infinite (negative : Bool)
  | finite (negative : Bool) (magnitude : Binary)
deriving DecidableEq, Repr

/-- The leading one of a significand, which the bits of a double do not hold. -/
def hiddenOne : Nat :=
  0x10000000000000

/-- The number of a double's sixty-four bits: sign, eleven bits of exponent and fifty-two of
fraction. The lowest exponent has no hidden leading one and the highest is not finite.
-/
def Number.ofBits (bits : UInt64) : Number :=
  let negative := bits >>> 63 != 0
  let field := ((bits >>> 52) &&& 0x7ff).toNat
  let fraction := (bits &&& 0xfffffffffffff).toNat
  if field = 0x7ff then
    if fraction = 0 then .infinite negative else .undefined
  else if field = 0 then .finite negative ⟨fraction, -1074⟩
  else .finite negative ⟨fraction + hiddenOne, field - 1075⟩

/-- The number a double stands for. -/
def Number.ofFloat (x : Float) : Number :=
  .ofBits x.toBits

/-- The magnitude, counted in units of `10 ^ place`, as a fraction. -/
def Binary.inUnits (x : Binary) (place : Int) : Nat × Nat :=
  (x.significand * Nat.pow 2 x.exponent.toNat * Nat.pow 10 (-place).toNat,
    Nat.pow 2 (-x.exponent).toNat * Nat.pow 10 place.toNat)

/-- The whole number nearest to a fraction, the even one of two equally near. -/
def roundHalfEven (numerator denominator : Nat) : Nat :=
  let quotient := numerator / denominator
  let twice := 2 * (numerator % denominator)
  if denominator < twice ∨ (twice = denominator ∧ quotient % 2 = 1) then quotient + 1
  else quotient

/-- Rounding misses the fraction by no more than half a unit. -/
theorem roundHalfEven_near (numerator denominator : Nat) (h : 0 < denominator)
    : 2 * (roundHalfEven numerator denominator * denominator) ≤ 2 * numerator + denominator
      ∧ 2 * numerator ≤ 2 * (roundHalfEven numerator denominator * denominator) + denominator := by
  have whole := Nat.div_add_mod numerator denominator
  have small := Nat.mod_lt numerator h
  rw [Nat.mul_comm] at whole
  simp only [roundHalfEven]
  split
  · rw [Nat.add_mul, Nat.one_mul]
    omega
  · omega

/-- The whole number nearest to a fraction, the greater one of two equally near. -/
def roundHalfUp (numerator denominator : Nat) : Nat :=
  (2 * numerator + denominator) / (2 * denominator)

/-- The greatest number of sixty-four bits. -/
def greatestWord : Nat :=
  0xffffffffffffffff

/-- The word nearest to a number, halves away from zero. It is zero for what is below zero or
undefined, and the greatest word for what is beyond it.
-/
def Number.nearestWord : Number → Nat
  | .undefined => 0
  | .infinite negative => if negative then 0 else greatestWord
  | .finite negative magnitude =>
      let (numerator, denominator) := magnitude.inUnits 0
      if negative then 0 else min (roundHalfUp numerator denominator) greatestWord

end RangeTuner.Decimal
