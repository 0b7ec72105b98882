import RangeTuner.Decimal.Notation
import RangeTuner.Decimal.Reading

/-! JSON values. A number is kept as it is written, so that nothing is lost before it is known
what it should be; an object keeps its members in the order of the text, repeated names
included.
-/

namespace RangeTuner

/-- A JSON value. -/
inductive Json where
  | null
  | bool (b : Bool)
  | number (text : String)
  | string (s : String)
  /-- A string that is not characters throughout, or an object with such a name. -/
  | garbled
  | array (items : List Json)
  | object (members : List (String × Json))

namespace Json

open RangeTuner.Decimal

/-- The text without a minus in front, and whether there was one. -/
def splitMinus : List Char → Bool × List Char
  | '-' :: s => (true, s)
  | s => (false, s)

/-- The digits behind a point that a text starts with, at least one, and the rest of the text; no
digits where it starts without a point.
-/
def fraction? : List Char → Option (List Char × List Char)
  | '.' :: s =>
      let fraction := s.takeWhile Char.isDigit
      if fraction.isEmpty then none else some (fraction, s.dropWhile Char.isDigit)
  | s => some ([], s)

/-- The exponent that a whole text writes, zero if it is empty. -/
def exponent? : List Char → Option Int
  | [] => some 0
  | mark :: s =>
      let (down, ds) := splitSign s
      let size : Int := value ds
      if (mark = 'e' || mark = 'E') && !ds.isEmpty && ds.all Char.isDigit then
        some (if down then -size else size)
      else none

/-- The parts of a number as JSON writes it: no leading zero, digits on both sides of a point
and in an exponent.
-/
def literal? (text : List Char) : Option Literal := do
  let (negative, s) := splitMinus text
  let whole := s.takeWhile Char.isDigit
  guard (!whole.isEmpty && (whole.length = 1 || whole.head? ≠ some '0'))
  let (fraction, s) ← fraction? (s.dropWhile Char.isDigit)
  let exponent ← exponent? s
  return ⟨negative, whole, fraction, exponent⟩

/-- The value of a number. -/
def float? : Json → Option Float
  | .number text => do
      let x := (← literal? text.toList).toFloat
      if x.isFinite then some x else none
  | _ => none

/-- The value of a number that is written as a whole one: digits, and a minus unless it is
zero.
-/
def int? : Json → Option Int
  | .number text =>
      match text.toList with
      | '-' :: ds =>
          if ds.all Char.isDigit && !ds.isEmpty && value ds ≠ 0 then some (-(value ds : Int))
          else none
      | ds => if ds.all Char.isDigit && !ds.isEmpty then some (value ds) else none
  | _ => none

/-- A whole number that sixty-four bits hold, not negative. -/
def nat? (j : Json) : Option Nat := do
  let n ← j.int?
  if 0 ≤ n ∧ n < 18446744073709551616 then some n.toNat else none

/-- A whole number that sixty-four bits hold. -/
def word? (j : Json) : Option UInt64 :=
  j.nat?.map Nat.toUInt64

/-- A whole number that sixty-three bits and a sign hold. -/
def signed? (j : Json) : Option Int := do
  let n ← j.int?
  if -9223372036854775808 ≤ n ∧ n < 9223372036854775808 then some n else none

/-- A string. -/
def string? : Json → Option String
  | .string s => some s
  | _ => none

/-- A truth value. -/
def bool? : Json → Option Bool
  | .bool b => some b
  | _ => none

/-- The items of an array. -/
def items? : Json → Option (List Json)
  | .array items => some items
  | _ => none

/-- The members of an object. -/
def members? : Json → Option (List (String × Json))
  | .object members => some members
  | _ => none

/-- The items of an array, each of one kind. -/
def list? {α : Type} (item : Json → Option α) (j : Json) : Option (List α) := do
  (← j.items?).mapM item

/-- An item or `null`. -/
def option? {α : Type} (item : Json → Option α) : Json → Option (Option α)
  | .null => some none
  | j => (item j).map some

/-- Two items of one kind. -/
def pair? {α : Type} (item : Json → Option α) (j : Json) : Option (α × α) :=
  match j with
  | .array [a, b] => do return (← item a, ← item b)
  | _ => none

/-- Three items of one kind. -/
def triple? {α : Type} (item : Json → Option α) (j : Json) : Option (α × α × α) :=
  match j with
  | .array [a, b, c] => do return (← item a, ← item b, ← item c)
  | _ => none

/-- A double: its shortest decimal, and `null` where it is not finite. -/
def ofFloat (x : Float) : Json :=
  match pointed? x with
  | some text => .number text
  | none => .null

/-- A whole number. -/
def ofInt (n : Int) : Json :=
  .number (toString n)

/-- A whole number that is not negative. -/
def ofNat (n : Nat) : Json :=
  .number (toString n)

/-- Sixty-four bits as a whole number. -/
def ofWord (w : UInt64) : Json :=
  ofNat w.toNat

/-- An item, or `null` for none. -/
def ofOption {α : Type} (item : α → Json) : Option α → Json
  | none => .null
  | some a => item a

/-- The items of a list. -/
def ofList {α : Type} (item : α → Json) (items : List α) : Json :=
  .array (items.map item)

mutual

/-- How many arrays and objects stand inside each other at most. -/
def depth : Json → Nat
  | .array items => depthOfItems items + 1
  | .object members => depthOfMembers members + 1
  | _ => 0

/-- The greatest depth of the items of an array. -/
def depthOfItems : List Json → Nat
  | [] => 0
  | item :: rest => max (depth item) (depthOfItems rest)

/-- The greatest depth of the members of an object. -/
def depthOfMembers : List (String × Json) → Nat
  | [] => 0
  | (_, item) :: rest => max (depth item) (depthOfMembers rest)

end

/-- The value is a whole number of sixty-four bits or a finite double. -/
def isNumber (j : Json) : Bool :=
  j.nat?.isSome || j.signed?.isSome || j.float?.isSome

mutual

/-- Every string names characters and every number is one that is held, down to the leaves. -/
def isSound : Json → Bool
  | .garbled => false
  | .number text => (Json.number text).isNumber
  | .array items => areSound items
  | .object members => membersAreSound members
  | _ => true

/-- Every item of an array is sound. -/
def areSound : List Json → Bool
  | [] => true
  | item :: rest => isSound item && areSound rest

/-- Every member of an object is sound. -/
def membersAreSound : List (String × Json) → Bool
  | [] => true
  | (_, item) :: rest => isSound item && membersAreSound rest

end

end Json

end RangeTuner
