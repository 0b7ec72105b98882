import RangeTuner.Source.Category
import RangeTuner.Source.Features
import RangeTuner.Text.Braces
import RangeTuner.Text.Lexeme

/-! The features of a source text: the counts of all categories and a few measures of complexity,
taken from the cleaned text.
-/

namespace RangeTuner.Source

open RangeTuner.Text

/-- A place where control flow divides. -/
def decisionPoint : Sign :=
  .exactWord ["if", "while", "for", "switch", "case"]

/-- The head of a function definition; what is found is its name. -/
def functionHead : Idiom (List Char) where
  opening := .wordStart
  scan := do
    let _ ← Scanner.word
    Scanner.blanks1
    let name ← Scanner.word
    Scanner.blanks
    Scanner.literal "("
    let _ ← Scanner.upTo ')'
    Scanner.blanks
    Scanner.literal "\x7b"
    return name

/-- Words that look like a function's name in front of a block but are none. -/
def controlWords : List String :=
  ["if", "while", "for", "switch", "return", "sizeof"]

/-- The functions whose calls are counted one by one. -/
def mathFunctions : List String :=
  ["sin", "cos", "tan", "sqrt", "pow", "atan2", "fabs"]

/-- A word that speaks of validation. -/
def validationWord : Sign :=
  .wordBeginning ["validate", "check", "verify", "ensure"]

/-- The number of function definitions in a text. -/
def functionCount (text : List Char) : Nat :=
  ((functionHead.findAll text).filter fun name => .ofList name ∉ controlWords).length

/-- The number of lines that are not blank. -/
def lineCount (text : List Char) : Nat :=
  ((lines text).filter fun line => !isBlankLine line).length

/-- The features of a text that has been cleaned. -/
def Features.ofCleaned (text : List Char) : Features :=
  let counted := Category.all.foldl
    (fun features category => features.insertCount category.feature (category.count text))
    (Features.ofLines (lineCount text))
  let measured := counted
    |>.insert "cyclomatic_complexity" (decisionPoint.count text + 1).toFloat
    |>.insert "max_nesting_depth" (nesting text).toFloat
    |>.insertCount "function_count" (functionCount text)
  let called := mathFunctions.foldl
    (fun features name => features.insertCount (name ++ "_calls") ((Sign.exactCall name).count text))
    measured
  called.insertCount "validation_functions" (validationWord.count text)

/-- The features of a source text. -/
def Features.extract (text : List Char) : Features :=
  .ofCleaned (clean text)

end RangeTuner.Source
