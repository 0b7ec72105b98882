import RangeTuner.Fault
import RangeTuner.Learning.Scalar

/-! Decisions for or against, and the shape of what they are learned from. -/

namespace RangeTuner.Learning

/-- A decision and how sure it is, from a half to one. -/
structure Decision (α : Type) where
  apply : Bool
  confidence : α

namespace Decision

/-- A number cut to the range from zero to one. -/
@[specialize] def clampUnit {α : Type} [Scalar α] (x : α) : α :=
  if Scalar.lt x Scalar.zero then Scalar.zero
  else if Scalar.lt Scalar.one x then Scalar.one
  else x

/-- The decision of a probability of "apply": for, if it is over a half. -/
@[specialize] def ofProbability {α : Type} [Scalar α] (p : α) : Decision α :=
  ⟨Scalar.lt (Scalar.ofDecimal 5 1) p, clampUnit (Scalar.max p (Scalar.one - p))⟩

/-- The logistic curve, from zero to one. -/
def logistic (x : Float) : Float :=
  1.0 / (1.0 + (-x).exp)

/-- The decision of a score: for, if it is positive. -/
def ofScore (score : Float) : Decision Float :=
  ⟨score > 0.0, logistic score.abs⟩

end Decision

/-- A row and whether it is labelled "apply". -/
structure Example (α : Type) where
  row : List α
  label : Bool

/-- The examples of rows and labels, of which there must be as many, and some. -/
def Example.zip {α : Type} (rows : List (List α)) (labels : List Bool)
    : Except Fault (List (Example α)) :=
  if rows.isEmpty then .error .emptyTrainingSet
  else if rows.length ≠ labels.length then .error (.shapeMismatch rows.length labels.length)
  else .ok (rows.zipWith .mk labels)

end RangeTuner.Learning
