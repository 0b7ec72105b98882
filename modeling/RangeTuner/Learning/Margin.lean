import RangeTuner.Learning.Decision
import RangeTuner.Learning.Random
import RangeTuner.Learning.Settings

/-! Linear margins: a weight per column and a bias, trained by going through the examples in
shuffled order, shrinking the weights at each and moving them wherever the margin is short.
-/

namespace RangeTuner.Learning

/-- A linear margin with the settings and the seed it was trained with. -/
structure Margin where
  settings : MarginSettings
  seed : UInt64
  weights : List Float
  bias : Float

namespace Margin

/-- The sum of the products of two lists. -/
def dot (xs ys : List Float) : Float :=
  Scalar.sum (xs.zipWith (· * ·) ys)

/-- A state of training: the number of steps taken, the weights and the bias. -/
structure Progress where
  steps : Float
  weights : List Float
  bias : Float

/-- One step on one example. -/
def Progress.step (settings : MarginSettings) (p : Progress) (e : Example Float) : Progress :=
  let rate := settings.learningRate
  let decay := settings.regularization
  let steps := p.steps + 1.0
  let eta := rate / (1.0 + rate * decay * steps)
  let side := if e.label then 1.0 else -1.0
  let reached := side * (dot p.weights e.row + p.bias)
  let weights := p.weights.map (· * (1.0 - eta * decay))
  if reached < 1.0 then
    ⟨steps, accumulate (fun w x => w + eta * side * x) weights e.row, p.bias + eta * side⟩
  else ⟨steps, weights, p.bias⟩

/-- Goes through the examples so many times, in an order that is shuffled further each time. -/
def train (settings : MarginSettings) (examples : Array (Example Float))
    : (epochs : Nat) → List Nat → Progress → Draw Progress
  | 0, _, p => return p
  | epochs + 1, order, p => do
      let order ← Draw.shuffle order
      train settings examples epochs order
        ((order.filterMap (examples[·]?)).foldl (Progress.step settings) p)

/-- The margin trained on rows and their labels. -/
def fit (margin : Margin) (rows : List (List Float)) (labels : List Bool)
    : Except Fault Margin := do
  let examples ← Example.zip rows labels
  let start : Progress := ⟨0.0, (rows.headD []).map fun _ => 0.0, 0.0⟩
  let order := List.range examples.length
  let reached := ((train margin.settings examples.toArray margin.settings.epochs order start).run
    (.ofSeed margin.seed)).1
  return { margin with weights := reached.weights, bias := reached.bias }

/-- The score of a row. -/
def score (margin : Margin) (row : List Float) : Float :=
  dot margin.weights row + margin.bias

/-- The decision for a row. -/
def decide (margin : Margin) (row : List Float) : Decision Float :=
  .ofScore (margin.score row)

end Margin

end RangeTuner.Learning
