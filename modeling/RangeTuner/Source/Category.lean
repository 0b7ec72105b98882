import RangeTuner.Text.Idiom

/-! Categories of surface idioms. The count of a category in a text is the number of hits of each
of its idioms, taken together. Categories ignore case; a few signs that other measures count do not.
-/

namespace RangeTuner.Source

open RangeTuner.Text

/-- One way in which a category shows in a text. -/
abbrev Sign := Idiom Unit

namespace Sign

/-- A call of one of the named functions. -/
def call (names : List String) : Sign where
  opening := .wordStart
  scan := do
    Scanner.oneOfLetters names
    Scanner.blanks
    Scanner.literal "("

/-- One of these words, on its own. -/
def wholeWord (names : List String) : Sign where
  opening := .wordStart
  scan := do
    Scanner.oneOfLetters names
    Scanner.wordEnd

/-- A word that starts in one of these ways. -/
def wordBeginning (names : List String) : Sign where
  opening := .wordStart
  scan := Scanner.oneOfLetters names

/-- One of these texts, even inside a word. -/
def anyOf (texts : List String) : Sign where
  opening := .anywhere
  scan := Scanner.oneOfLetters texts

/-- A slash that neither starts a comment nor ends one; the character after it is taken too, so
that `a/b/c` counts twice.
-/
def division : Sign where
  opening := .anywhere
  scan := do
    Scanner.literal "/"
    Scanner.textEnd <|> (do let _ ← Scanner.one fun c => c ≠ '/' && c ≠ '*')

/-- A subscript that is a single word. -/
def wordSubscript : Sign where
  opening := .anywhere
  scan := do
    Scanner.literal "["
    Scanner.blanks
    let _ ← Scanner.word
    Scanner.blanks
    Scanner.literal "]"

/-- A word right after a mark. -/
def markedWord (mark : String) : Sign where
  opening := .anywhere
  scan := do
    Scanner.literal mark
    let _ ← Scanner.word

/-- A whole number, possibly negative. -/
def wholeNumber : Scanner Unit := do
  Scanner.possibly (Scanner.literal "-")
  let _ ← Scanner.run1 isDigit

/-- A comparison with a number. -/
def numericBound : Sign where
  opening := .anywhere
  scan := do
    Scanner.oneOf ["<=", ">=", "<", ">"]
    Scanner.blanks
    wholeNumber

/-- A comparison with the null pointer. -/
def nullComparison : Sign where
  opening := .anywhere
  scan := do
    Scanner.oneOf ["==", "!="]
    Scanner.blanks
    Scanner.letters "null"

/-- The return of a number. -/
def numericReturn : Sign where
  opening := .wordStart
  scan := do
    Scanner.letters "return"
    Scanner.blanks1
    wholeNumber

/-- A word of the given list exactly as written. -/
def exactWord (names : List String) : Sign where
  opening := .wordStart
  scan := do
    Scanner.oneOf names
    Scanner.wordEnd

/-- A call of a function named exactly so. -/
def exactCall (name : String) : Sign where
  opening := .wordStart
  scan := do
    Scanner.literal name
    Scanner.blanks
    Scanner.literal "("

end Sign

/-- A category: its name and the signs that are counted for it. -/
structure Category where
  name : String
  signs : List Sign

/-- The name of the feature that a category's count is recorded as. -/
def Category.feature (category : Category) : String :=
  category.name ++ "_count"

/-- The number of hits of a category's signs in a text. -/
def Category.count (category : Category) (text : List Char) : Nat :=
  category.signs.foldl (fun total sign => total + sign.count text) 0

/-- The catalogue of categories. -/
def Category.all : List Category := [
  ⟨"trigonometric", [.call ["sin", "cos", "tan", "atan2"]]⟩,
  ⟨"sqrt_operations", [.call ["sqrtf", "sqrt"]]⟩,
  ⟨"power_operations", [.call ["powf", "pow"]]⟩,
  ⟨"division_operations", [.division]⟩,
  ⟨"for_loops", [.call ["for"]]⟩,
  ⟨"while_loops", [.call ["while"]]⟩,
  ⟨"if_statements", [.call ["if"]]⟩,
  ⟨"switch_statements", [.call ["switch"]]⟩,
  ⟨"malloc_calls", [.call ["malloc", "calloc", "realloc"]]⟩,
  ⟨"array_access", [.wordSubscript]⟩,
  ⟨"pointer_operations", [.markedWord "*", .markedWord "&"]⟩,
  ⟨"gps_coordinates", [.wordBeginning ["lat", "lon"]]⟩,
  ⟨"distance_calculations", [.anyOf ["distance", "haversine", "euclidean"]]⟩,
  ⟨"geofencing", [.anyOf ["geofence", "inside", "boundary", "radius"]]⟩,
  ⟨"double_usage", [.wholeWord ["double"]]⟩,
  ⟨"float_usage", [.wholeWord ["float"]]⟩,
  ⟨"int_usage", [.wholeWord ["int"]]⟩,
  ⟨"range_checks", [.numericBound]⟩,
  ⟨"null_checks", [.nullComparison]⟩,
  ⟨"error_handling", [.numericReturn, .call ["exit"], .call ["abort"]]⟩]

end RangeTuner.Source
