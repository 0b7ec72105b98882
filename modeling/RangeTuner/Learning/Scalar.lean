/-! The numbers that learners compute with: doubles when they run, rationals when their laws are
studied.
-/

namespace RangeTuner.Learning

/-- Arithmetic, comparison, and a total order that sorting uses. -/
class Scalar (α : Type) extends Add α, Sub α, Mul α, Div α, Neg α where
  ofNat : Nat → α
  /-- `mantissa / 10 ^ places`. -/
  ofDecimal : (mantissa places : Nat) → α
  lt : α → α → Bool
  le : α → α → Bool
  /-- The first may stand before the second in a sorted list. -/
  before : α → α → Bool

namespace Scalar

variable {α : Type} [Scalar α]

/-- Zero. -/
def zero : α := ofNat 0

/-- One. -/
def one : α := ofNat 1

/-- The sum of a list, from its start. The sum of nothing is a negative zero: of the two zeros of
doubles it is the one that changes no number it is added to.
-/
@[specialize] def sum (xs : List α) : α :=
  xs.foldl (· + ·) (-zero)

/-- The size of a number, without its sign. -/
@[specialize] def abs (x : α) : α :=
  if lt x zero then -x else x

/-- The greater of two numbers. -/
@[specialize] def max (x y : α) : α :=
  if lt x y then y else x

/-- One for true and zero for false. -/
def ofBool (b : Bool) : α :=
  if b then one else zero

end Scalar

/-- The first list, each entry combined with that of the second where there is one. -/
def accumulate {α β : Type} (f : α → β → α) : List α → List β → List α
  | a :: as, b :: bs => f a b :: accumulate f as bs
  | as, _ => as

/-- A double's place in a total order of all doubles: negative ones backwards by their bits, and
positive ones after them.
-/
def orderKey (x : Float) : UInt64 :=
  let bits := x.toBits
  if bits >>> 63 = 0 then bits ^^^ 0x8000000000000000 else ~~~bits

instance : Scalar Float where
  ofNat n := n.toFloat
  ofDecimal mantissa places := .ofScientific mantissa true places
  lt x y := x < y
  le x y := x ≤ y
  before x y := orderKey x ≤ orderKey y

end RangeTuner.Learning
