import RangeTuner.Text.Lines

/-! Scanners read a beginning of a text. None of them goes back on what it has read, so the
beginning is decided step by step: a step takes all it can.
-/

namespace RangeTuner.Text

/-- Reads a beginning of the text: what it found there and the text after it. -/
abbrev Scanner (α : Type) := StateT (List Char) Option α

namespace Scanner

/-- Exactly this text. -/
def literal (text : String) : Scanner Unit :=
  fun s => (after? text.toList s).map ((), ·)

/-- The text after these letters, whatever their case; the pattern is in small letters. -/
def afterLetters? : List Char → List Char → Option (List Char)
  | [], s => some s
  | _ :: _, [] => none
  | a :: pattern, c :: s => if sameLetter c a then afterLetters? pattern s else none

/-- These letters in any case; the pattern is in small letters. -/
def letters (pattern : String) : Scanner Unit :=
  fun s => (afterLetters? pattern.toList s).map ((), ·)

/-- The longest run of characters of a class. -/
def run (p : Char → Bool) : Scanner (List Char) :=
  fun s => some (s.takeWhile p, s.dropWhile p)

/-- The longest run of characters of a class, when it is not empty. -/
def run1 (p : Char → Bool) : Scanner (List Char) := do
  let found ← run p
  guard !found.isEmpty
  return found

/-- One character of a class. -/
def one (p : Char → Bool) : Scanner Char
  | [] => none
  | c :: s => if p c then some (c, s) else none

/-- Any number of blanks. -/
def blanks : Scanner Unit := do
  let _ ← run isBlank

/-- At least one blank. -/
def blanks1 : Scanner Unit := do
  let _ ← run1 isBlank

/-- A whole run of word characters. -/
def word : Scanner (List Char) :=
  run1 isWord

/-- Nothing, where no word goes on. -/
def wordEnd : Scanner Unit
  | [] => some ((), [])
  | c :: s => if isWord c then none else some ((), c :: s)

/-- Nothing, where the text ends. -/
def textEnd : Scanner Unit :=
  fun s => if s.isEmpty then some ((), []) else none

/-- The scanner's text, or nothing where it does not stand. -/
def possibly (scan : Scanner Unit) : Scanner Unit :=
  scan <|> pure ()

/-- The first of these texts that stands here. -/
def oneOf : List String → Scanner Unit
  | [] => failure
  | text :: others => literal text <|> oneOf others

/-- The first of these texts that stands here in any case. -/
def oneOfLetters : List String → Scanner Unit
  | [] => failure
  | text :: others => letters text <|> oneOfLetters others

/-- What the scanner finds, with the text it has read. -/
def lexeme {α : Type} (scan : Scanner α) : Scanner (α × List Char) := fun s =>
  (scan s).map fun (found, rest) => ((found, s.take (s.length - rest.length)), rest)

/-- Blanks around a text. -/
def spaced (text : String) : Scanner Unit := do
  blanks
  literal text
  blanks

/-- The text between an opening that was just read and the first of the closing characters,
which is read too.
-/
def upTo (close : Char) : Scanner (List Char) := do
  let inside ← run (· ≠ close)
  let _ ← one (· == close)
  return inside

end Scanner

/-- The whole words of a text, in order. -/
def wordsFrom (word : List Char) : List Char → List (List Char)
  | [] => if word.isEmpty then [] else [word.reverse]
  | c :: s =>
      if isWord c then wordsFrom (c :: word) s
      else if word.isEmpty then wordsFrom [] s
      else word.reverse :: wordsFrom [] s

/-- The maximal runs of word characters of a text, in order. -/
def words (s : List Char) : List (List Char) :=
  wordsFrom [] s

/-- These words stand in a text in this order, among others. -/
def hasWords (wanted : List String) (s : List Char) : Bool :=
  (wanted.map String.toList).isSublist (words s)

/-- The text ends in this way. -/
def endsWith (finish : String) (s : List Char) : Bool :=
  finish.toList.isSuffixOf s

/-- A word that starts and ends in the given ways, the two not overlapping. -/
def hasEnds (start finish : String) (word : List Char) : Bool :=
  match after? start.toList word with
  | some rest => endsWith finish rest
  | none => false

end RangeTuner.Text
