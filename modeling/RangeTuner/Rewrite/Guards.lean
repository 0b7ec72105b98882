import RangeTuner.Rewrite.Template

/-! Guards: statements that leave a function when a check fails. Two templates remove them. Where
both coordinate ranges are small, checks of coordinates cannot fail; checks of pointers are
removed on any facts. A guard is its head and a block up to the first closing brace, and the
block must hold the words that make it one.
-/

namespace RangeTuner.Rewrite

open RangeTuner.Text RangeTuner.Spec

namespace Guards

/-- The word of a condition and the bracket it opens. -/
def opening : Scanner Unit := do
  Scanner.literal "if"
  Scanner.blanks
  Scanner.literal "("
  Scanner.blanks

/-- The end of a condition and a block that holds these words in this order. -/
def block (words : List String) : Scanner Unit := do
  Scanner.blanks
  Scanner.literal ")"
  Scanner.blanks
  Scanner.literal "\x7b"
  let inside ← Scanner.upTo '}'
  guard (hasWords words inside)

/-- A guard with a condition, whose block holds these words. -/
def idiom (condition : Scanner Unit) (words : List String) : Idiom Unit where
  opening := .wordStart
  scan := do
    opening
    condition
    block words

/-- A negated word. -/
def negatedWord : Scanner Unit := do
  Scanner.literal "!"
  Scanner.blanks
  let _ ← Scanner.word

/-- A word that starts like an axis. -/
def axisWord (axis : String) : Scanner Unit := do
  Scanner.literal axis
  let _ ← Scanner.run isWord

/-- A bound with any number of zero decimals. -/
def boundText (bound : String) : Scanner Unit := do
  Scanner.literal bound
  Scanner.possibly do
    Scanner.literal "."
    let _ ← Scanner.run (· == '0')

/-- A coordinate that lies outside the bounds of its axis. -/
def outOfBounds (axis bound : String) : Scanner Unit := do
  axisWord axis
  Scanner.spaced "<"
  boundText ("-" ++ bound)
  Scanner.spaced "||"
  axisWord axis
  Scanner.spaced ">"
  boundText bound

/-- A validation of coordinates that fails. -/
def failedValidation : Scanner Unit := do
  Scanner.literal "!"
  Scanner.blanks
  let name ← Scanner.word
  guard (hasEnds "validate" "Coordinates" name)
  Scanner.blanks
  Scanner.literal "("
  let _ ← Scanner.upTo ')'

/-- One of two pointers that is null. -/
def eitherNull : Scanner Unit := do
  negatedWord
  Scanner.spaced "||"
  negatedWord

/-- A pointer compared with the null pointer. -/
def equalsNull : Scanner Unit := do
  let _ ← Scanner.word
  Scanner.spaced "=="
  Scanner.literal "NULL"

end Guards

namespace RangeGuards

/-- The facts say that both coordinate ranges are small. -/
def authorizes (facts : Facts) : Bool :=
  facts.bothAxesSmall

/-- The guards that are removed, in the order of their removal. -/
def idioms : List (Idiom Unit) := [
  Guards.idiom (Guards.outOfBounds "lat" "90") ["return"],
  Guards.idiom (Guards.outOfBounds "lon" "180") ["return"],
  Guards.idiom Guards.failedValidation ["return"]]

/-- What stands in the place of a removed guard. -/
def comment : List Char :=
  marker "range check removed, bounds guaranteed by the declared ranges"

/-- The text without range guards. -/
def rewrite (text : List Char) : List Char :=
  replaceAll idioms comment text

end RangeGuards

namespace NullGuards

/-- The guards that are removed, in the order of their removal. -/
def idioms : List (Idiom Unit) := [
  Guards.idiom Guards.eitherNull ["return"],
  Guards.idiom Guards.equalsNull ["return"],
  Guards.idiom Guards.negatedWord ["printf", "return"]]

/-- What stands in the place of a removed guard. -/
def comment : List Char :=
  marker "null check removed"

/-- The text without null guards. -/
def rewrite (text : List Char) : List Char :=
  replaceAll idioms comment text

end NullGuards

end RangeTuner.Rewrite
