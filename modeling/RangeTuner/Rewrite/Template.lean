import RangeTuner.Spec.Facts
import RangeTuner.Text.Idiom

/-! What the rewrite templates share: their settings, the comments they leave behind, and the
renaming of type aliases. A template recognizes a small set of idioms, edits nothing else, and
edits only when the facts authorize it.
-/

namespace RangeTuner.Rewrite

open RangeTuner.Text RangeTuner.Spec

/-- The limits that facts are held against. -/
structure Settings where
  /-- The greatest area, in square kilometres, where coordinates fit a narrower type. -/
  narrowCeiling : Float
  /-- The greatest area that counts as flat. -/
  planarCeiling : Float
  /-- The greatest area with one reference point. -/
  constantsCeiling : Float
  /-- The greatest value that a single byte stores. -/
  singleByteMax : Float
  metersPerDegree : Float

/-- The settings used where nothing else is configured. -/
def Settings.standard : Settings where
  narrowCeiling := 1000.0
  planarCeiling := 400.0
  constantsCeiling := 1000.0
  singleByteMax := 255.0
  metersPerDegree := 111320.0

/-- The tag of every comment that a template leaves behind. -/
def tag : String :=
  "rangeopt:"

/-- A comment that may stand in the middle of a line. -/
def marker (note : String) : List Char :=
  ("/* " ++ tag ++ " " ++ note ++ " */").toList

/-- The covered area is known and no greater than a ceiling. -/
def areaWithin (ceiling : Float) (facts : Facts) : Bool :=
  facts.area?.any (· ≤ ceiling)

/-- The name of the narrowed form of an alias; only generic names get a new one. -/
def optimizedAlias (name : List Char) : List Char :=
  match after? "generic_".toList name with
  | some rest => "optimized_".toList ++ rest
  | none => name

/-- A word, on its own. -/
def wholeWord (name : List Char) : Idiom Unit where
  opening := .wordStart
  scan := do
    let found ← Scanner.word
    guard (found = name)

/-- The text with a word renamed wherever it stands on its own. -/
def rename (name new : List Char) (text : List Char) : List Char :=
  (wholeWord name).replace (fun _ => new) text

/-- The text with each alias renamed to its narrowed form, one after the other. -/
def renameAliases (names : List (List Char)) (text : List Char) : List Char :=
  names.foldl (fun text name => rename name (optimizedAlias name) text) text

/-- The text with every hit of each idiom replaced by a comment, one idiom after the other. -/
def replaceAll (idioms : List (Idiom Unit)) (comment : List Char) (text : List Char)
    : List Char :=
  idioms.foldl (fun text idiom => idiom.replace (fun _ => comment) text) text

end RangeTuner.Rewrite
