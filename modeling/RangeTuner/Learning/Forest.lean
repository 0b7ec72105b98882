import RangeTuner.Learning.Decision
import RangeTuner.Learning.Settings
import RangeTuner.Learning.Tree

/-! Forests: trees that are each grown on examples drawn with repetition, searching a few drawn
columns for each split. The probability of "apply" is the mean of what the trees tell, which are
shares of labels.
-/

namespace RangeTuner.Learning

/-- A forest with the settings and the seed it was grown with. -/
structure Forest (α : Type) where
  settings : ForestSettings
  seed : UInt64
  trees : List (Tree α)

namespace Forest

variable {α : Type} [Scalar α]

/-- The least whole number whose square is at least `n`. -/
def ceilSqrt (n : Nat) : Nat :=
  ((List.range (n + 1)).find? fun k => n ≤ k * k).getD n

/-- The share of examples labelled "apply". -/
@[specialize] def share (examples : List (Example α)) : α :=
  if examples.isEmpty then Scalar.zero
  else
    Scalar.sum (examples.map fun e => Scalar.ofBool e.label) / Scalar.ofNat examples.length

/-- How the trees of a forest are grown on rows of a width. -/
@[specialize] def grower (settings : ForestSettings) (width : Nat) : Grower (Example α) α where
  reading e feature := e.row.getD feature Scalar.zero
  target e := Scalar.ofBool e.label
  minSplit := max settings.minSamplesSplit 2
  columns := do return (← Draw.shuffle (List.range width)).take (max (ceilSqrt width) 1)
  leaf := share

/-- As many of the examples as there are, drawn with repetition. -/
def bootstrap (examples : Array (Example α)) : Draw (List (Example α)) := do
  return (← Draw.replicate examples.size (Draw.below examples.size)).filterMap (examples[·]?)

/-- One tree, grown on examples of its own. -/
@[specialize] def drawTree (settings : ForestSettings) (width : Nat)
    (examples : Array (Example α))
    : Draw (Tree α) := do
  (grower settings width).grow settings.maxDepth (← bootstrap examples)

/-- The trees of a forest, each from a stream of its own. -/
@[specialize] def growTrees (settings : ForestSettings) (seed : UInt64)
    (examples : List (Example α))
    : List (Tree α) :=
  let width := (examples.head?.map fun e => e.row.length).getD 0
  let examples := examples.toArray
  (List.range settings.trees).map fun t =>
    ((drawTree settings width examples).run (.ofStream seed t.toUInt64)).1

/-- The forest grown on rows and their labels. -/
@[specialize] def fit (forest : Forest α) (rows : List (List α)) (labels : List Bool)
    : Except Fault (Forest α) := do
  let examples ← Example.zip rows labels
  return { forest with trees := growTrees forest.settings forest.seed examples }

/-- The probability of "apply"; a forest without trees is undecided. -/
@[specialize] def probability (forest : Forest α) (row : List α) : α :=
  if forest.trees.isEmpty then Scalar.ofDecimal 5 1
  else
    Scalar.sum (forest.trees.map (Tree.eval row)) / Scalar.ofNat forest.trees.length

/-- How far the probability lies above a half. -/
@[specialize] def margin (forest : Forest α) (row : List α) : α :=
  forest.probability row - Scalar.ofDecimal 5 1

/-- The decision for a row. -/
@[specialize] def decide (forest : Forest α) (row : List α) : Decision α :=
  .ofProbability (forest.probability row)

end Forest

end RangeTuner.Learning
