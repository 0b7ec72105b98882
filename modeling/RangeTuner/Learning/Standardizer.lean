import RangeTuner.Learning.Scalar

/-! Standardization: each column is shifted by its mean and divided by its standard deviation, as
they were when it was fitted.
-/

namespace RangeTuner.Learning

/-- The shift and the divisor of each column. -/
structure Standardizer where
  mean : List Float
  scale : List Float

namespace Standardizer

/-- The standard deviation of a column from its squared distances; columns that hardly vary are
left as they are.
-/
def deviation (count squares : Float) : Float :=
  let root := (squares / count).sqrt
  if root > 2.220446049250313e-16 then root else 1.0

/-- Fits the columns of a list of rows, as many as the first row has. -/
def fit (rows : List (List Float)) : Standardizer :=
  let zeros := (rows.headD []).map fun _ => 0.0
  let count := (max rows.length 1).toFloat
  let mean := (rows.foldl (accumulate (· + ·)) zeros).map (· / count)
  let squares := rows.foldl
    (fun squares row =>
      accumulate (fun s (v, m) => s + (v - m) * (v - m)) squares (row.zip mean))
    zeros
  ⟨mean, squares.map (deviation count)⟩

/-- The number of columns. -/
def width (s : Standardizer) : Nat :=
  s.mean.length

/-- A row standardized; columns that were not fitted are left out. -/
def transform (s : Standardizer) (row : List Float) : List Float :=
  (row.zip (s.mean.zip s.scale)).map fun (v, m, d) => (v - m) / d

end Standardizer

end RangeTuner.Learning
