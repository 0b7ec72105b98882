import RangeTuner.Learning.Decision
import RangeTuner.Learning.Settings
import RangeTuner.Learning.Tree

/-! Boosted trees under logistic loss: each tree is grown on what the trees before it leave
unexplained, and its leaves take one Newton step. The score is the sum of all trees, damped, on
top of the odds of the labels.
-/

namespace RangeTuner.Learning

/-- Boosted trees with the settings they were grown with. -/
structure Boosting where
  settings : BoostingSettings
  /-- The score before the first tree. -/
  base : Float
  trees : List (Tree Float)

namespace Boosting

open Decision (logistic)

/-- An example in the course of boosting: its score so far. -/
structure Scored where
  row : List Float
  label : Float
  score : Float

/-- An example as one tree sees it: what is unexplained and how fast that changes. -/
structure Residual where
  row : List Float
  gradient : Float
  curvature : Float

/-- What a score leaves unexplained. -/
def Scored.residual (e : Scored) : Residual :=
  let p := logistic e.score
  ⟨e.row, e.label - p, p * (1.0 - p)⟩

/-- One Newton step for the examples of a leaf, none where the loss is flat. -/
def newton (examples : List Residual) : Float :=
  let numerator := Scalar.sum (examples.map Residual.gradient)
  let denominator := Scalar.sum (examples.map Residual.curvature)
  if denominator < 1e-12 then 0.0 else numerator / denominator

/-- How the trees are grown: all columns are searched, so nothing is drawn. -/
def grower (width : Nat) : Grower Residual Float where
  reading e feature := e.row.getD feature 0.0
  target := Residual.gradient
  minSplit := 2
  columns := return List.range width
  leaf := newton

/-- The tree for what is left unexplained. -/
def growTree (settings : BoostingSettings) (width : Nat) (examples : List Scored)
    : Tree Float :=
  (((grower width).grow settings.maxDepth (examples.map Scored.residual)).run (.ofSeed 0)).1

/-- Grows one tree after the other, so many of them. -/
def growTrees (settings : BoostingSettings) (width : Nat)
    : (rounds : Nat) → List Scored → List (Tree Float)
  | 0, _ => []
  | rounds + 1, examples =>
      let tree := growTree settings width examples
      let moved := examples.map fun e =>
        { e with score := e.score + settings.learningRate * tree.eval e.row }
      tree :: growTrees settings width rounds moved

/-- A number cut to a range. -/
def clamp (low high x : Float) : Float :=
  if x < low then low else if x > high then high else x

/-- The odds of the labels, on a logarithmic scale; they are kept away from certainty. -/
def baseScore (labels : List Float) : Float :=
  let prior := clamp 1e-6 (1.0 - 1e-6) (Scalar.sum labels / labels.length.toFloat)
  (prior / (1.0 - prior)).log

/-- The boosted trees grown on rows and their labels. -/
def fit (boosting : Boosting) (rows : List (List Float)) (labels : List Bool)
    : Except Fault Boosting := do
  let examples ← Example.zip rows labels
  let base := baseScore (labels.map Scalar.ofBool)
  let width := (rows.headD []).length
  let scored := examples.map fun e => Scored.mk e.row (Scalar.ofBool e.label) base
  return {
    boosting with
    base := base
    trees := growTrees boosting.settings width boosting.settings.rounds scored }

/-- The score of a row. -/
def score (boosting : Boosting) (row : List Float) : Float :=
  boosting.base
    + boosting.settings.learningRate * Scalar.sum (boosting.trees.map (Tree.eval row))

/-- The probability of "apply". -/
def probability (boosting : Boosting) (row : List Float) : Float :=
  logistic (boosting.score row)

/-- The decision for a row. -/
def decide (boosting : Boosting) (row : List Float) : Decision Float :=
  .ofProbability (boosting.probability row)

end Boosting

end RangeTuner.Learning
