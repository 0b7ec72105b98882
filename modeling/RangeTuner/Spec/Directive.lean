import RangeTuner.Decimal.Notation
import RangeTuner.Decimal.Reading
import RangeTuner.Text.Lines

/-! Directives of a range specification, one a line:

* a range, `range name == [min unit, max unit]`, whose units may be left out, and
* a precision, `precision name == value unit`.

A comma and a line comment may follow. A line that starts with neither keyword is no directive;
one that does, and does not follow the grammar, is a faulty one, and the fault tells where.
-/

namespace RangeTuner.Spec

open RangeTuner.Text RangeTuner.Decimal

/-- The two kinds of directives. -/
inductive Keyword where
  | range
  | precision
deriving DecidableEq, Repr

/-- The word a directive starts with. -/
def Keyword.text : Keyword → String
  | .range => "range"
  | .precision => "precision"

/-- A declared range of a quantity, with the unit its bounds share. -/
structure RangeDirective where
  name : String
  min : Float
  max : Float
  unit : Option String

/-- How far apart the bounds are. -/
def RangeDirective.width (r : RangeDirective) : Float :=
  r.max - r.min

/-- What a precision counts. -/
inductive PrecisionUnit where
  | decimalPlaces
  | named (unit : String)
deriving DecidableEq, Repr

/-- A declared precision of a quantity. -/
structure PrecisionDirective where
  name : String
  value : Float
  unit : PrecisionUnit

/-- A directive that follows the grammar. -/
inductive Directive where
  | range (r : RangeDirective)
  | precision (p : PrecisionDirective)

/-- Where a directive leaves the grammar: in the middle, or after its end. -/
inductive Deviation where
  | unexpected (rest : List Char)
  | trailing (rest : List Char)
deriving DecidableEq, Repr

/-- Why a line that starts with a keyword is not a directive. -/
inductive DirectiveError where
  | malformed (keyword : Keyword) (deviation : Deviation)
  | nonFinite (name : String)
  | unitMismatch (name minUnit maxUnit : String)
  | invertedRange (name : String) (min max : Float)

/-- The beginning of a text as an error shows it. -/
def preview (s : List Char) : String :=
  .ofList (s.take 24)

/-- The words of a deviation. -/
def Deviation.message : Deviation → String
  | .unexpected rest => "unexpected input at `" ++ preview rest ++ "`"
  | .trailing rest => "trailing input `" ++ preview rest ++ "`"

/-- The words of an error. -/
def DirectiveError.message : DirectiveError → String
  | .malformed keyword deviation =>
      "malformed `" ++ keyword.text ++ "` directive: " ++ deviation.message
  | .nonFinite name => "directive `" ++ name ++ "` has a non-finite value"
  | .unitMismatch name minUnit maxUnit =>
      "range `" ++ name ++ "` has mismatched units `" ++ minUnit ++ "` and `" ++ maxUnit ++ "`"
  | .invertedRange name min max =>
      "range `" ++ name ++ "` is inverted: min " ++ plain min ++ " > max " ++ plain max

/-- Reads a beginning of a text, or stops with the text it could not read. -/
abbrev Phrase (α : Type) := StateT (List Char) (Except (List Char)) α

namespace Phrase

/-- Exactly this text. -/
def literal (text : String) : Phrase Unit := fun s =>
  match after? text.toList s with
  | some rest => .ok ((), rest)
  | none => .error s

/-- A blank or a tabulator, which is all that may separate the parts of a directive. -/
def isGap (c : Char) : Bool :=
  c == ' ' || c == '\t'

/-- Any number of gaps. -/
def gaps : Phrase Unit := fun s =>
  .ok ((), s.dropWhile isGap)

/-- At least one gap. -/
def gaps1 : Phrase Unit := fun s =>
  match s with
  | c :: rest => if isGap c then .ok ((), rest.dropWhile isGap) else .error s
  | [] => .error s

/-- A character that a name may start with. -/
def isNameStart (c : Char) : Bool :=
  c.isAlpha || c == '_'

/-- A character that a name may go on with. -/
def isNameRest (c : Char) : Bool :=
  c.isAlphanum || c == '_' || c == '/'

/-- A name: a letter or underscore, then letters, digits, underscores and slashes. -/
def name : Phrase String := fun s =>
  match s with
  | c :: rest =>
      if isNameStart c then
        .ok (.ofList (c :: rest.takeWhile isNameRest), rest.dropWhile isNameRest)
      else .error s
  | [] => .error s

/-- The text after three letters, in any case. -/
def afterWord? (word : List Char) (s : List Char) : Option (List Char) :=
  if (s.take word.length).map Char.toLower = word then some (s.drop word.length) else none

/-- A number: a decimal literal, or a word for what is not finite. -/
def number : Phrase Float := fun s =>
  match Literal.ofPrefix? s with
  | some (literal, rest) => .ok (literal.toFloat, rest)
  | none =>
      match afterWord? ['n', 'a', 'n'] s with
      | some rest => .ok (0.0 / 0.0, rest)
      | none =>
          match afterWord? ['i', 'n', 'f'] s with
          | some rest => .ok (1.0 / 0.0, rest)
          | none => .error s

/-- What the phrase reads, or nothing where it does not stand. -/
def optional {α : Type} (phrase : Phrase α) : Phrase (Option α) := fun s =>
  match phrase s with
  | .ok (found, rest) => .ok (some found, rest)
  | .error _ => .ok (none, s)

/-- A number and its unit, if a name follows after a gap. -/
def bound : Phrase (Float × Option String) := do
  let value ← number
  let unit ← optional (do gaps1; name)
  return (value, unit)

/-- A bound with gaps around it. -/
def spacedBound : Phrase (Float × Option String) := do
  gaps
  let found ← bound
  gaps
  return found

/-- The keyword, the name it declares and the sign of equality. -/
def declared (keyword : Keyword) : Phrase String := do
  literal keyword.text
  gaps1
  let found ← name
  gaps
  literal "=="
  gaps
  return found

/-- The parts of a range directive: its name and its bounds. -/
def range : Phrase (String × (Float × Option String) × (Float × Option String)) := do
  let found ← declared .range
  literal "["
  let low ← spacedBound
  literal ","
  let high ← spacedBound
  literal "]"
  return (found, low, high)

/-- The parts of a precision directive: its name, its value and its unit. -/
def precision : Phrase (String × Float × String) := do
  let found ← declared .precision
  let value ← number
  gaps1
  let unit ← name
  return (found, value, unit)

end Phrase

/-- What may follow a directive: blanks, a comma, and a line comment. -/
def trailer (rest : List Char) : Except Deviation Unit :=
  let rest := trimStart rest
  let rest := trimStart ((after? [','] rest).getD rest)
  if rest.isEmpty || (after? ['/', '/'] rest).isSome then .ok () else .error (.trailing rest)

/-- The parts of a directive that is followed by nothing but a trailer. -/
def parts {α : Type} (keyword : Keyword) (phrase : Phrase α) (line : List Char)
    : Except DirectiveError α :=
  match phrase line with
  | .error rest => .error (.malformed keyword (.unexpected rest))
  | .ok (found, rest) =>
      match trailer rest with
      | .error deviation => .error (.malformed keyword deviation)
      | .ok () => .ok found

/-- A range from its parts: finite bounds, one unit at most, and the lower bound first. -/
def RangeDirective.ofParts (name : String) (low high : Float × Option String)
    : Except DirectiveError RangeDirective :=
  if !low.1.isFinite || !high.1.isFinite then .error (.nonFinite name)
  else
    match low.2, high.2 with
    | some minUnit, some maxUnit =>
        if minUnit ≠ maxUnit then .error (.unitMismatch name minUnit maxUnit)
        else if high.1 < low.1 then .error (.invertedRange name low.1 high.1)
        else .ok ⟨name, low.1, high.1, some minUnit⟩
    | minUnit, maxUnit =>
        if high.1 < low.1 then .error (.invertedRange name low.1 high.1)
        else .ok ⟨name, low.1, high.1, minUnit.or maxUnit⟩

/-- A precision from its parts: a finite value. -/
def PrecisionDirective.ofParts (name : String) (value : Float) (unit : String)
    : Except DirectiveError PrecisionDirective :=
  if !value.isFinite then .error (.nonFinite name)
  else
    .ok ⟨name, value, if unit = "decimal_places" then .decimalPlaces else .named unit⟩

/-- The line starts with the keyword and a gap. -/
def startsWith (keyword : Keyword) (line : List Char) : Bool :=
  match after? keyword.text.toList line with
  | some (c :: _) => Phrase.isGap c
  | _ => false

/-- The directive of a line without blanks around it; none where it starts with no keyword. -/
def Directive.ofTrimmed? (line : List Char) : Option (Except DirectiveError Directive) :=
  if startsWith .range line then
    some do
      let (name, low, high) ← parts .range Phrase.range line
      return .range (← RangeDirective.ofParts name low high)
  else if startsWith .precision line then
    some do
      let (name, value, unit) ← parts .precision Phrase.precision line
      return .precision (← PrecisionDirective.ofParts name value unit)
  else none

/-- The directive of a line; none where it starts with no keyword. -/
def Directive.ofLine? (line : List Char) : Option (Except DirectiveError Directive) :=
  ofTrimmed? (trim line)

end RangeTuner.Spec
