import RangeTuner.Rewrite.Template

/-! Narrow coordinate types: where a small area needs no more precision, aliases of `double` for
coordinates become aliases of `float` under a name that says so, and declarations of coordinates
as `double` become declarations as `float`.
-/

namespace RangeTuner.Rewrite.NarrowCoordinates

open RangeTuner.Text RangeTuner.Spec

/-- The facts say that the area is small enough. -/
def authorizes (settings : Settings) (facts : Facts) : Bool :=
  areaWithin settings.narrowCeiling facts

/-- The definition of a coordinate type; what is found is its name. -/
def aliasTypedef : Idiom (List Char) where
  opening := .wordStart
  scan := do
    Scanner.literal "typedef"
    Scanner.blanks1
    Scanner.literal "double"
    Scanner.blanks1
    let name ← Scanner.word
    guard (endsWith "latitude" name || endsWith "longitude" name)
    Scanner.blanks
    Scanner.literal ";"
    return name

/-- The narrowed definition of a type. -/
def narrowedTypedef (name : List Char) : List Char :=
  "typedef float ".toList ++ optimizedAlias name ++ [';']

/-- The declaration of a coordinate; what is found is the gap before its name, and the name. -/
def coordinateDeclaration : Idiom (List Char × List Char) where
  opening := .wordStart
  scan := do
    Scanner.literal "double"
    let gap ← Scanner.run1 isBlank
    let name ← Scanner.word
    guard ((after? "lat".toList name).isSome || (after? "lon".toList name).isSome)
    return (gap, name)

/-- The text with coordinate types narrowed. -/
def rewrite (text : List Char) : List Char :=
  let narrowed := aliasTypedef.replace narrowedTypedef text
  let renamed := renameAliases (aliasTypedef.findAll text) narrowed
  coordinateDeclaration.replace (fun (gap, name) => "float".toList ++ gap ++ name) renamed

end RangeTuner.Rewrite.NarrowCoordinates
