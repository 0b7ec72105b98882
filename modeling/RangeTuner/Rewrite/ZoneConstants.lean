import RangeTuner.Rewrite.PlanarDistance

/-! Zone constants: definitions of the center of the area and of its scale are put after the last
include or definition that stands before any code.
-/

namespace RangeTuner.Rewrite.ZoneConstants

open RangeTuner.Decimal RangeTuner.Spec RangeTuner.Text

/-- The facts say that the area is small enough, and where its center is. -/
def authorizes (settings : Settings) (facts : Facts) : Bool :=
  areaWithin settings.constantsCeiling facts && facts.center?.isSome

/-- The name of the first constant; a text that has it has the constants. -/
def centerName : String :=
  "GEO_ZONE_LAT_CENTER"

/-- Blanks and tabulators. -/
def gap : Scanner Unit := do
  let _ ← Scanner.run fun c => c == ' ' || c == '\t'

/-- The rest of a line, without its end. -/
def lineRest : Scanner Unit := do
  let _ ← Scanner.run (· ≠ '\n')

/-- The end of a line or of the text. -/
def lineEnd : Scanner Unit :=
  Scanner.literal "\n" <|> Scanner.textEnd

/-- A comment that is closed, and the gap after it. -/
def closedComment : Scanner Unit := do
  Scanner.literal "/*"
  let _ ← fun s => splitAtFirst? ['*', '/'] s
  gap

/-- A line without code: blank, a preprocessor line, or nothing but a comment, which may go over
several lines.
-/
def codelessLine : Idiom Unit where
  opening := .anywhere
  scan := do
    gap
    Scanner.possibly
      ((do Scanner.oneOf ["#", "//"]; lineRest) <|> closedComment)
    lineEnd

/-- An include or a definition, with the end of its line. -/
def directive : Idiom Unit where
  opening := .lineStart
  scan := do
    gap
    Scanner.literal "#"
    gap
    Scanner.oneOf ["include", "define"]
    Scanner.wordEnd
    lineRest
    lineEnd

/-- The lines without code that a text starts with. -/
def prologue (text : List Char) : List Char :=
  ((codelessLine.pieces text).takeWhile fun piece => piece.found?.isSome).flatMap Piece.text

/-- A text up to the last hit of an idiom, the hit included. -/
def throughLast {α : Type} (idiom : Idiom α) (text : List Char) : List Char :=
  ((idiom.pieces text).reverse.dropWhile fun piece => piece.found?.isNone).reverse.flatMap
    Piece.text

/-- The beginning of a text after which the constants are put. -/
def start (text : List Char) : List Char :=
  throughLast directive (prologue text)

/-- The lines of the constants, with a blank line before and after them. -/
def constants (settings : Settings) (center : Float × Float) (area : Float) : List Char :=
  let (latitude, longitude) := center
  let cosine := (radians latitude).cos
  let lines := [
    "",
    "// " ++ tag ++ " precomputed zone constants",
    "// zone center (" ++ fixed 6 latitude ++ ", " ++ fixed 6 longitude ++ "), area "
      ++ fixed 1 area ++ " km²",
    "#define " ++ centerName ++ "  " ++ fixed 6 latitude,
    "#define GEO_ZONE_LON_CENTER  " ++ fixed 6 longitude,
    "#define GEO_ZONE_LAT_RAD     " ++ fixed 6 (radians latitude),
    "#define GEO_ZONE_COS_LAT     " ++ fixed 6 cosine,
    "#define GEO_LAT_TO_METERS    " ++ fixed 1 settings.metersPerDegree,
    "#define GEO_LON_TO_METERS    " ++ fixed 1 (settings.metersPerDegree * cosine),
    ""]
  lines.flatMap fun line => line.toList ++ ['\n']

/-- The text with the constants put in, unless it has them. -/
def rewrite (settings : Settings) (facts : Facts) (text : List Char) : List Char :=
  if occurs centerName.toList text then text
  else
    match facts.center? with
    | none => text
    | some center =>
        let before := start text
        let after := (text.drop before.length).dropWhile (· == '\n')
        before ++ constants settings center (facts.area?.getD 0.0) ++ after

end RangeTuner.Rewrite.ZoneConstants
