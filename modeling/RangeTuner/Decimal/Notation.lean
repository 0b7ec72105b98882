import RangeTuner.Decimal.Shortest

/-! How doubles are written: in messages, positionally and with the fewest digits; in data, with
the fewest digits and always a point or an exponent; in tables and comments, with a set number
of decimal places.
-/

namespace RangeTuner.Decimal

/-- A number's text with its sign and the words for what is not finite. -/
def signed (magnitude : Binary → List Char) (x : Float) : List Char :=
  match Number.ofFloat x with
  | .undefined => "NaN".toList
  | .infinite negative => (if negative then "-inf" else "inf").toList
  | .finite negative m => if negative then '-' :: magnitude m else magnitude m

/-- Digits with a decimal point in front of the last `places` of them; no point when there are
none.
-/
def withPoint (ds : List Char) (places : Nat) : List Char :=
  if places = 0 then ds
  else
    let padded := padStart (places + 1) '0' ds
    padded.take (padded.length - places) ++ '.' :: padded.drop (padded.length - places)

/-- A decimal written positionally. -/
def Scaled.plain (d : Scaled) : List Char :=
  if 0 ≤ d.place then digits d.count ++ List.replicate d.place.toNat '0'
  else withPoint (digits d.count) (-d.place).toNat

/-- The double in the fewest digits, never with an exponent: `5`, `0.1`, `-0`, `inf`. -/
def plain (x : Float) : String :=
  .ofList (signed (fun m => if m.significand = 0 then ['0'] else m.shortest.plain) x)

/-- A magnitude rounded to a number of decimal places, halves to the even digit. -/
def Binary.fixed (places : Nat) (m : Binary) : List Char :=
  let (numerator, denominator) := m.inUnits (-places)
  withPoint (digits (roundHalfEven numerator denominator)) places

/-- The double rounded to a number of decimal places: `95.2`, `-0.0`, `inf`. -/
def fixed (places : Nat) (x : Float) : String :=
  .ofList (signed (Binary.fixed places) x)

/-- A decimal with a point or an exponent: positional while the point falls after the first
sixteen digits at most and after four leading zeros at most, otherwise scientific.
-/
def Scaled.pointed (d : Scaled) : List Char :=
  let ds := digits d.count
  let point := ds.length + d.place
  if 0 ≤ d.place ∧ point ≤ 16 then d.plain ++ ['.', '0']
  else if -5 < point ∧ point ≤ 16 then d.plain
  else
    let exponent := (toString (point - 1)).toList
    match ds with
    | [only] => only :: 'e' :: exponent
    | first :: rest => first :: '.' :: (rest ++ 'e' :: exponent)
    | [] => exponent

/-- The text of a finite double in data: `1.0`, `0.1`, `1e300`; none for others. -/
def pointed? (x : Float) : Option String :=
  match Number.ofFloat x with
  | .finite negative m =>
      let text := if m.significand = 0 then ['0', '.', '0'] else m.shortest.pointed
      some (.ofList (if negative then '-' :: text else text))
  | _ => none

end RangeTuner.Decimal
