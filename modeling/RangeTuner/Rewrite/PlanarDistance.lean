import RangeTuner.Decimal.Notation
import RangeTuner.Rewrite.Template
import RangeTuner.Source.Category
import RangeTuner.Text.Braces

/-! Planar distances: in a small area, the body of a function that computes a great-circle
distance is replaced by a flat approximation, scaled for the latitude of the area. The lines of
the old body stay below the new one as comments.
-/

namespace RangeTuner.Rewrite

open RangeTuner.Decimal RangeTuner.Source RangeTuner.Spec RangeTuner.Text

/-- Degrees as radians. -/
def radians (degrees : Float) : Float :=
  degrees * (3.14159265358979323846 / 180.0)

namespace PlanarDistance

/-- The facts say that the area is small enough. -/
def authorizes (settings : Settings) (facts : Facts) : Bool :=
  areaWithin settings.planarCeiling facts

/-- A character of a parameter's name. -/
def isNameCharacter (c : Char) : Bool :=
  isAlphanumeric c || c == '_'

/-- The last name in a parameter's declaration, before any subscript. -/
def parameterName? (declaration : List Char) : Option (List Char) :=
  let backwards := (declaration.takeWhile (· ≠ '[')).reverse
  let name := (backwards.dropWhile fun c => !isNameCharacter c).takeWhile isNameCharacter
  if name.isEmpty then none else some name.reverse

/-- The parts of a text between commas, the one being read backwards. -/
def splitCommas (part : List Char) : List Char → List (List Char)
  | [] => [part.reverse]
  | ',' :: s => part.reverse :: splitCommas [] s
  | c :: s => splitCommas (c :: part) s

/-- The names of a list of parameters; parameters without one are left out. -/
def parameterNames (parameters : List Char) : List (List Char) :=
  (splitCommas [] parameters).filterMap parameterName?

/-- The words that tell an approximated body. -/
def note : String :=
  "planar distance approximation"

/-- The body computes a great-circle distance and has not been approximated. -/
def isGreatCircle (body : List Char) : Bool :=
  !occurs note.toList body
    && ["sin", "cos", "atan2"].all fun name => (Sign.exactCall name).occursIn body

/-- The type that a distance is computed in. -/
def returnType : Scanner String :=
  (do Scanner.literal "double"; return "double") <|> (do Scanner.literal "float"; return "float")

/-- The head of a function that computes a distance, without the brace that opens its body: the
type it returns and its parameters.
-/
def head : Scanner (String × List Char) := do
  let type ← returnType
  Scanner.blanks1
  let name ← Scanner.word
  guard (occurs "distance".toList name || occurs "Distance".toList name)
  Scanner.blanks
  Scanner.literal "("
  let parameters ← Scanner.run fun c => c ≠ '(' && c ≠ ')'
  Scanner.literal ")"
  Scanner.blanks
  return (type, parameters)

/-- A function between two points, given by their latitudes and longitudes. -/
structure Function where
  head : List Char
  type : String
  latitude₁ : List Char
  longitude₁ : List Char
  latitude₂ : List Char
  longitude₂ : List Char
  body : List Char

/-- A great-circle distance function with four parameters. -/
def idiom : Idiom Function where
  opening := .wordStart
  scan := do
    let ((type, parameters), head) ← Scanner.lexeme head
    Scanner.literal "\x7b"
    let body ← fun s => block? s
    guard (isGreatCircle body)
    match parameterNames parameters with
    | [latitude₁, longitude₁, latitude₂, longitude₂] =>
        return ⟨head, type, latitude₁, longitude₁, latitude₂, longitude₂, body⟩
    | _ => failure

/-- The lines of a text that are not blank. -/
def filledLines (text : List Char) : List (List Char) :=
  (lines text).filter fun line => !isBlankLine line

/-- The blanks that the first filled line starts with, four if there are none. -/
def indentation (body : List Char) : List Char :=
  let blanks := ((filledLines body).headD []).takeWhile isBlank
  if blanks.isEmpty then List.replicate 4 ' ' else blanks

/-- A line as the text of a comment: a backslash at its end would take in the next line. -/
def commentText (line : List Char) : List Char :=
  dropEndWhile (· == '\\') (trimEnd line)

/-- The lines of an approximated body before the comments with the old one. -/
def planarLines (settings : Settings) (facts : Facts) (f : Function) : List String :=
  let latitude := (facts.bounds? Axis.latitude.name).map Facts.middle |>.getD 0.0
  let scale := settings.metersPerDegree * (radians latitude).cos
  let area := facts.area?.getD 0.0
  let difference (a b : List Char) : String :=
    "(" ++ .ofList a ++ " - " ++ .ofList b ++ ")"
  [
    "// " ++ tag ++ " " ++ note ++ " (zone area " ++ fixed 1 area ++ " km²)",
    "const " ++ f.type ++ " LAT_TO_METERS = " ++ fixed 1 settings.metersPerDegree ++ ";",
    "const " ++ f.type ++ " LON_TO_METERS = " ++ fixed 1 scale ++ "; /* at latitude "
      ++ fixed 6 latitude ++ " */",
    f.type ++ " dlat_m = " ++ difference f.latitude₂ f.latitude₁ ++ " * LAT_TO_METERS;",
    f.type ++ " dlon_m = " ++ difference f.longitude₂ f.longitude₁ ++ " * LON_TO_METERS;",
    "return sqrt(dlat_m * dlat_m + dlon_m * dlon_m);",
    "// great-circle original:"]

/-- A function with its body approximated. -/
def planar (settings : Settings) (facts : Facts) (f : Function) : List Char :=
  let indent := indentation f.body
  let new := (planarLines settings facts f).map String.toList
  let old := (filledLines f.body).map fun line => '/' :: '/' :: commentText line
  f.head ++ '{' :: '\n' :: ((new ++ old).flatMap fun line => indent ++ line ++ ['\n']) ++ ['}']

/-- The text with great-circle distances approximated. -/
def rewrite (settings : Settings) (facts : Facts) (text : List Char) : List Char :=
  idiom.replace (planar settings facts) text

end PlanarDistance

end RangeTuner.Rewrite
