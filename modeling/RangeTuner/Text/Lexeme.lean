import RangeTuner.Text.Idiom

/-! Comments and literals of a C source. Counting runs on the cleaned text, where comments are
gone and literals are empty, so that words inside them are not taken for code.
-/

namespace RangeTuner.Text

/-- A part of a source that is not code: a comment, or a literal and the quote it stands in. -/
inductive Lexeme where
  | comment
  | literal (quote : Char)
deriving DecidableEq, Repr

namespace Lexeme

/-- The text after the closing quote of a literal whose opening quote was just read. An escape
takes the character after it, whatever it is; a literal does not go over the end of its line.
-/
def afterLiteral? (quote : Char) : List Char → Option (List Char)
  | [] => none
  | ['\\'] => none
  | '\\' :: _ :: s => afterLiteral? quote s
  | c :: s =>
      if c = quote then some s
      else if c = '\n' then none
      else afterLiteral? quote s

/-- A line comment, a closed block comment or a closed literal. -/
def scan : Scanner Lexeme
  | '/' :: '/' :: s => some (.comment, s.dropWhile (· ≠ '\n'))
  | '/' :: '*' :: s => (splitAtFirst? ['*', '/'] s).map fun found => (.comment, found.2)
  | '"' :: s => (afterLiteral? '"' s).map (.literal '"', ·)
  | '\'' :: s => (afterLiteral? '\'' s).map (.literal '\'', ·)
  | _ => none

/-- Comments and literals as an idiom; the leftmost opener decides which one it is. -/
def idiom : Idiom Lexeme where
  opening := .anywhere
  scan := scan

/-- What is left of a lexeme in the cleaned text. -/
def remnant : Lexeme → List Char
  | .comment => []
  | .literal quote => [quote, quote]

end Lexeme

/-- The text without its comments and with its literals emptied. -/
def clean (s : List Char) : List Char :=
  Lexeme.idiom.replace Lexeme.remnant s

end RangeTuner.Text
