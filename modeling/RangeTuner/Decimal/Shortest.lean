import RangeTuner.Decimal.Binary
import RangeTuner.Decimal.Digits

/-! The shortest decimal of a double: the fewest digits that read back as the same double, and
of those the nearest to it. Decimal grids are tried from the coarse to the fine; on each the
two neighbours of the magnitude are tested against the interval of numbers that round to it.
-/

namespace RangeTuner.Decimal

/-- The decimal `count * 10 ^ place`. -/
structure Scaled where
  count : Nat
  place : Int
deriving DecidableEq, Repr

namespace Binary

/-- `count * 10 ^ place` lies in the interval of numbers that round to the magnitude. The
interval goes halfway to each neighbour, the one below a power of two being half as far, and
has its ends when the significand is even.
-/
def readsBack (x : Binary) (place : Int) (count : Nat) : Bool :=
  let quarter := Binary.mk 1 (x.exponent - 2)
  let (unit, base) := quarter.inUnits place
  let below := if x.significand = hiddenOne ∧ -1074 < x.exponent then 1 else 2
  let low := (4 * x.significand - below) * unit
  let high := (4 * x.significand + 2) * unit
  let here := count * base
  if x.significand % 2 = 0 then low ≤ here && here ≤ high else low < here && here < high

/-- The multiple of `10 ^ place` that reads back, the nearer of two and the upper of two equally
near ones.
-/
def onGrid? (x : Binary) (place : Int) : Option Scaled :=
  let (numerator, denominator) := x.inUnits place
  let floor := numerator / denominator
  let down := x.readsBack place floor
  let up := x.readsBack place (floor + 1)
  if down && (!up || 2 * (numerator % denominator) < denominator) then some ⟨floor, place⟩
  else if up then some ⟨floor + 1, place⟩
  else none

/-- The first decimal that reads back on the grids from `10 ^ place` downwards, `grids` of them,
and the exact multiple of the last one if there is none.
-/
def firstOnGrid (x : Binary) : Nat → Int → Scaled
  | 0, place =>
      let (numerator, denominator) := x.inUnits place
      ⟨numerator / denominator, place⟩
  | grids + 1, place => (x.onGrid? place).getD (firstOnGrid x grids (place - 1))

/-- A power of ten above the magnitude, from the count of its binary digits: three binary digits
make less than one decimal digit.
-/
def ceilingPlace (x : Binary) : Int :=
  ((Nat.log2 x.significand + 1 : Nat) + x.exponent) * 30103 / 100000 + 1

/-- The shortest decimal of a magnitude that is not zero. -/
def shortest (x : Binary) : Scaled :=
  if x.significand = 0 then ⟨0, 0⟩ else x.firstOnGrid 22 x.ceilingPlace

end Binary

end RangeTuner.Decimal
