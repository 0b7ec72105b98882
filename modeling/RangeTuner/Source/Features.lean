import RangeTuner.Figures

/-! Numeric signals of one source text. A feature that was not extracted reads as zero; a count
is recorded with its share per line of code.
-/

namespace RangeTuner.Source

/-- The signals of a source and its number of lines of code. -/
structure Features where
  linesOfCode : Nat
  values : Figures

namespace Features

/-- The feature that records the number of lines of code. -/
def linesName : String := "lines_of_code"

/-- The feature for the share per line of a count. -/
def perLineOf (name : String) : String := name ++ "_per_loc"

/-- The features of a source of which only the number of lines is known. -/
def ofLines (linesOfCode : Nat) : Features :=
  ⟨linesOfCode, Figures.empty.insert linesName linesOfCode.toFloat⟩

/-- A feature, zero where it was not extracted. -/
def get (features : Features) (name : String) : Float :=
  features.values.getOrZero name

/-- The features with one written. -/
def insert (features : Features) (name : String) (figure : Float) : Features :=
  { features with values := features.values.insert name figure }

/-- A count's share per line of code, zero for a source without any. -/
def perLine (features : Features) (count : Nat) : Float :=
  if 0 < features.linesOfCode then count.toFloat / features.linesOfCode.toFloat else 0.0

/-- The features with a count and its share per line. -/
def insertCount (features : Features) (name : String) (count : Nat) : Features :=
  (features.insert name count.toFloat).insert (perLineOf name) (features.perLine count)

end Features

end RangeTuner.Source
