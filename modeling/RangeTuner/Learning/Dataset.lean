import RangeTuner.Fault
import RangeTuner.Inputs
import RangeTuner.Learning.Random
import RangeTuner.Learning.Regime

/-! Labelled rows. The rows of all regimes are drawn, in order, from one stream: first the row,
then its labels in declaration order.
-/

namespace RangeTuner.Learning

/-- Rows and, for each optimization, a label per row. -/
structure Dataset where
  rows : List (List Float)
  labels : PerOptimization (List Bool)

/-- One labelled row. -/
structure Sample where
  row : List Float
  labels : List (Optimization × Bool)

namespace Regime

open RangeTuner.Spec

/-- A row with the figure of one column written, if there is such a column. -/
def write (name : String) (figure : Float) (row : List Float) : List Float :=
  match Inputs.columnOf? name with
  | some place => row.set place figure
  | none => row

/-- The row with each jittered feature drawn, in order. -/
def drawFeatures : List Jitter → List Float → Draw (List Float)
  | [], row => return row
  | jitter :: rest, row => do
      let drawn ← Draw.between jitter.low jitter.high
      drawFeatures rest (write jitter.feature (.ofInt drawn) row)

/-- One row of the regime. -/
def drawRow (regime : Regime) : Draw (List Float) := do
  let row ← drawFeatures regime.codeFeatures (Inputs.columns.map fun _ => 0.0)
  let area ← Draw.uniform regime.area.1 regime.area.2
  let category ← Draw.between regime.areaCategory.1 regime.areaCategory.2
  let vehicle ← Draw.between regime.vehicle.1 regime.vehicle.2
  let small := if regime.smallRange then 1.0 else 0.0
  return row
    |> write Facts.area area
    |> write Facts.category (.ofInt category)
    |> write (Facts.smallOf Axis.latitude.name) small
    |> write (Facts.smallOf Axis.longitude.name) small
    |> write Facts.vehicle (.ofInt vehicle)

/-- The labels of one row; an optimization without a probability is never labelled. -/
def drawLabels (regime : Regime) : Draw (List (Optimization × Bool)) :=
  Optimization.all.mapM fun optimization => do
    return (optimization, ← Draw.bernoulli ((regime.applies.get? optimization).getD 0.0))

/-- One labelled row of the regime. -/
def drawSample (regime : Regime) : Draw Sample := do
  let row ← regime.drawRow
  let labels ← regime.drawLabels
  return ⟨row, labels⟩

/-- All labelled rows of the regime. -/
def drawSamples (regime : Regime) : Draw (List Sample) :=
  Draw.replicate regime.samples regime.drawSample

end Regime

/-- The label of an optimization in a sample. -/
def Sample.label (sample : Sample) (optimization : Optimization) : Bool :=
  (sample.labels.lookup optimization).getD false

namespace Dataset

/-- The dataset of a list of samples. -/
def ofSamples (samples : List Sample) : Dataset where
  rows := samples.map Sample.row
  labels := .tabulate fun optimization => samples.map (Sample.label · optimization)

/-- The labelled rows of all regimes, in order. -/
def drawAll (regimes : List Regime) : Draw (List Sample) := do
  return (← regimes.mapM Regime.drawSamples).flatten

/-- The dataset of a list of regimes and a seed; regimes without samples make none. -/
def synthesize (regimes : List Regime) (seed : UInt64) : Except Fault Dataset :=
  let samples := ((drawAll regimes).run (.ofSeed seed)).1
  if samples.isEmpty then .error .emptyTrainingSet else .ok (ofSamples samples)

end Dataset

end RangeTuner.Learning
