import RangeTuner.Decimal.Shortest

/-! Decimals read as doubles: the nearest double, and infinity beyond the largest. -/

namespace RangeTuner.Decimal

/-- The double nearest to `mantissa * 10 ^ exponent`. Magnitudes far outside the range of doubles
are decided by their number of digits alone.
-/
def nearest (mantissa : Nat) (exponent : Int) : Float :=
  let size : Int := (digits mantissa).length + exponent
  if mantissa = 0 ∨ size < -330 then 0.0
  else if 310 < size then 1.0 / 0.0
  else if exponent < 0 then Float.ofScientific mantissa true (-exponent).toNat
  else Float.ofScientific mantissa false exponent.toNat

/-- A decimal literal in its parts: sign, digits before and after the point, and exponent. -/
structure Literal where
  negative : Bool
  whole : List Char
  fraction : List Char
  exponent : Int
deriving DecidableEq, Repr

/-- The double a decimal literal is read as. -/
def Literal.toFloat (l : Literal) : Float :=
  let magnitude := nearest (value (l.whole ++ l.fraction)) (l.exponent - l.fraction.length)
  if l.negative then -magnitude else magnitude

/-- The text without a sign in front, and whether that was a minus. -/
def splitSign : List Char → Bool × List Char
  | '-' :: s => (true, s)
  | '+' :: s => (false, s)
  | s => (false, s)

/-- An exponent after the mantissa of a number; a letter `e` without digits after it is none. -/
def exponent? : List Char → Option (Int × List Char)
  | c :: s =>
      if c = 'e' ∨ c = 'E' then
        let (negative, rest) := splitSign s
        let ds := rest.takeWhile Char.isDigit
        if ds.isEmpty then none
        else
          let size : Int := value ds
          some (if negative then -size else size, rest.dropWhile Char.isDigit)
      else some (0, c :: s)
  | [] => some (0, [])

/-- The decimal literal that a text starts with, and the rest of the text. A literal is digits, at
least one of them, with a point in front, inside or behind.
-/
def Literal.ofPrefix? (s : List Char) : Option (Literal × List Char) := do
  let (negative, unsigned) := splitSign s
  let whole := unsigned.takeWhile Char.isDigit
  let (fraction, rest) :=
    match unsigned.dropWhile Char.isDigit with
    | '.' :: rest => (rest.takeWhile Char.isDigit, rest.dropWhile Char.isDigit)
    | rest => ([], rest)
  let pointAlone := whole.isEmpty && fraction.isEmpty
  if pointAlone then none
  let (exponent, rest) ← exponent? rest
  return (⟨negative, whole, fraction, exponent⟩, rest)

/-- A double rounded to a number of significant decimal digits, halves to the even digit, and
read back.
-/
def toSignificant (count : Nat) (x : Float) : Float :=
  match Number.ofFloat x with
  | .finite negative m =>
      if m.significand = 0 then x
      else
        let (numerator, denominator) := m.inUnits 0
        let whole := numerator / denominator
        let leading : Int :=
          if 0 < whole then (digits whole).length
          else (digits numerator).length - (digits denominator).length + 1
        let place := leading - count
        let (n, d) := m.inUnits place
        let place := if n / d < Nat.pow 10 (count - 1) then place - 1 else place
        let (n, d) := m.inUnits place
        let magnitude := nearest (roundHalfEven n d) place
        if negative then -magnitude else magnitude
  | _ => x

end RangeTuner.Decimal
