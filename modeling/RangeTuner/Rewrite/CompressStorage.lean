import RangeTuner.Rewrite.Template

/-! Compressed storage: types for speeds and numbers of satellites become single bytes where the
declared values fit, and formats that printed such a speed with decimals print it without.
-/

namespace RangeTuner.Rewrite.CompressStorage

open RangeTuner.Text RangeTuner.Spec

/-- The declared values of a quantity fit a single byte: the greatest is known and fits, and the
least is not negative where it is known.
-/
def fits (settings : Settings) (facts : Facts) (quantity : String) : Bool :=
  (facts.get? (Facts.minOf quantity)).all (· ≥ 0.0)
    && (facts.get? (Facts.maxOf quantity)).any fun greatest =>
      greatest ≥ 0.0 && greatest ≤ settings.singleByteMax

/-- The facts say that speeds or numbers of satellites fit. -/
def authorizes (settings : Settings) (facts : Facts) : Bool :=
  fits settings facts Facts.speed || fits settings facts Facts.satellites

/-- The rest of a type definition whose name ends in some way; what is found is the name. -/
def typedefName (finish : String) : Scanner (List Char) := do
  Scanner.blanks1
  let name ← Scanner.word
  guard (endsWith finish name)
  Scanner.blanks
  Scanner.literal ";"
  return name

/-- The definition of a type for speeds. -/
def speedTypedef : Idiom (List Char) where
  opening := .wordStart
  scan := do
    Scanner.literal "typedef"
    Scanner.blanks1
    Scanner.oneOf ["double", "float"]
    typedefName "speed"

/-- A sign word in front of a whole-number type. -/
def signWord (word : String) : Scanner Unit := do
  Scanner.literal word
  Scanner.blanks1

/-- The definition of a type for numbers of satellites. -/
def satellitesTypedef : Idiom (List Char) where
  opening := .wordStart
  scan := do
    Scanner.literal "typedef"
    Scanner.blanks1
    Scanner.possibly (signWord "unsigned" <|> signWord "signed")
    Scanner.oneOf ["int", "short", "long"]
    typedefName "satellites"

/-- The definition of a type as a single byte. -/
def byteTypedef (name : List Char) : List Char :=
  "typedef unsigned char ".toList ++ optimizedAlias name
    ++ (";  // " ++ tag ++ " 0-255 sufficient").toList

/-- The text with the types of an idiom narrowed to single bytes. -/
def narrow (typedef : Idiom (List Char)) (text : List Char) : List Char :=
  renameAliases (typedef.findAll text) (typedef.replace byteTypedef text)

/-- A printed speed: the format before and after the directive, and what is printed. -/
structure SpeedPrint where
  before : List Char
  after : List Char
  argument : List Char

/-- The directive of a format for a number with decimals, after its percent sign. -/
def decimalDirective : Scanner Unit := do
  let _ ← Scanner.run fun c => c == '-' || c == '+' || c == ' ' || c == '#' || c == '0'
  let _ ← Scanner.run isDigit
  Scanner.possibly do
    Scanner.literal "."
    let _ ← Scanner.run1 isDigit
  let _ ← Scanner.one fun c => c == 'f' || c == 'F'

/-- A speed that is printed with decimals and in its unit. -/
def speedFormat : Idiom SpeedPrint where
  opening := .wordStart
  scan := do
    Scanner.literal "printf"
    Scanner.spaced "("
    Scanner.literal "\""
    let before ← Scanner.run fun c => c ≠ '"' && c ≠ '%'
    Scanner.literal "%"
    decimalDirective
    let after ← Scanner.upTo '"'
    guard (occurs "km/h".toList after)
    Scanner.spaced ","
    let argument ← Scanner.run fun c => isWord c || c == '.' || c == '>' || c == '-'
    guard (endsWith "speed" argument)
    Scanner.blanks
    Scanner.literal ")"
    return ⟨before, after, argument⟩

/-- The speed printed as a whole number. -/
def SpeedPrint.whole (p : SpeedPrint) : List Char :=
  "printf(\"".toList ++ p.before ++ "%d".toList ++ p.after ++ "\", ".toList ++ p.argument
    ++ [')']

/-- The text with types for speeds narrowed, and their formats where there are such types. -/
def narrowSpeeds (text : List Char) : List Char :=
  let narrowed := narrow speedTypedef text
  if speedTypedef.occursIn text then speedFormat.replace SpeedPrint.whole narrowed else narrowed

/-- The text with the types that fit narrowed to single bytes. -/
def rewrite (settings : Settings) (facts : Facts) (text : List Char) : List Char :=
  let text := if fits settings facts Facts.speed then narrowSpeeds text else text
  if fits settings facts Facts.satellites then narrow satellitesTypedef text else text

end RangeTuner.Rewrite.CompressStorage
