import RangeTuner.Inputs
import RangeTuner.Learning.Dataset
import RangeTuner.Learning.Learner
import RangeTuner.Learning.Standardizer

/-! The bank of learners, one per optimization, which all read the same standardized row. A bank
is trained as a whole or not at all, and predicts only when it is trained.
-/

namespace RangeTuner

/-- What a learner tells about an optimization for one source, and why. -/
structure Prediction where
  optimization : Optimization
  apply : Bool
  confidence : Float
  rationale : String

namespace Learning

/-- What a training was like. -/
structure TrainingSummary where
  samples : Nat
  columns : Nat
  seed : UInt64
  /-- The share of held out rows decided as labelled, if rows were held out. -/
  holdoutAccuracy : PerOptimization (Option Float)

/-- Learners for all optimizations with what they were trained with. -/
structure Bank where
  settings : TrainingSettings
  columns : List String
  standardizer : Option Standardizer
  learners : PerOptimization Learner
  summary : Option TrainingSummary

/-- The indices of rows for training and of rows held out. At least one row is trained on. -/
structure Holdout where
  training : List Nat
  heldOut : List Nat

namespace Holdout

open RangeTuner.Decimal

/-- The number of rows held out. -/
def size (rows : Nat) (fraction : Float) : Nat :=
  min (Number.ofFloat (rows.toFloat * fraction)).nearestWord (rows - 1)

/-- The stream of a seed that rows are shuffled with. -/
def stream : UInt64 :=
  0xffffffffffffffff

/-- A random holdout of a fraction of the rows. -/
def draw (rows : Nat) (fraction : Float) (seed : UInt64) : Holdout :=
  let order := ((Draw.shuffle (List.range rows)).run (.ofStream seed stream)).1
  ⟨order.drop (size rows fraction), order.take (size rows fraction)⟩

end Holdout

namespace Bank

/-- A bank that has not been trained. -/
def untrained (settings : TrainingSettings) : Bank where
  settings := settings
  columns := Inputs.columns
  standardizer := none
  learners := .empty
  summary := none

/-- The bank can predict. -/
def isTrained (bank : Bank) : Bool :=
  bank.standardizer.isSome && bank.learners.isComplete

/-- The entries of a list at some places, unless one of them is missing. -/
def pick {α : Type} (items : Array α) (places : List Nat) : Except Fault (List α) :=
  places.mapM fun place =>
    match items[place]? with
    | some item => .ok item
    | none => .error (.shapeMismatch (place + 1) items.size)

/-- The share of pairs whose row is decided as labelled; none for no pairs. -/
def accuracy? (learner : Learner) (rows : List (List Float)) (labels : List Bool)
    : Option Float :=
  if rows.isEmpty then none
  else
    let hits := (rows.zip labels).countP fun (row, label) => (learner.decide row).apply == label
    some (hits.toFloat / rows.length.toFloat)

/-- Trains the learner of one optimization and tries it on the rows held out. -/
def trainOne (settings : TrainingSettings) (dataset : Dataset) (rows : Array (List Float))
    (holdout : Holdout) (optimization : Optimization)
    : Except Fault (Learner × Option Float) := do
  let labels ← match dataset.labels.get? optimization with
    | some labels => .ok labels.toArray
    | none => .error (.invalidConfig ("dataset has no labels for " ++ optimization.id))
  let fresh := Learner.untrained optimization.learner settings optimization.index.toUInt64
  let learner ← fresh.fit (← pick rows holdout.training) (← pick labels holdout.training)
  return (learner,
    accuracy? learner (← pick rows holdout.heldOut) (← pick labels holdout.heldOut))

/-- Trains the learners of a list of optimizations, in order. -/
def trainAll (settings : TrainingSettings) (dataset : Dataset) (rows : Array (List Float))
    (holdout : Holdout)
    : List Optimization → Except Fault (List (Optimization × Learner × Option Float))
  | [] => return []
  | optimization :: rest => do
      let trained ← trainOne settings dataset rows holdout optimization
      return (optimization, trained) :: (← trainAll settings dataset rows holdout rest)

/-- The bank trained on a dataset. -/
def trainOn (bank : Bank) (dataset : Dataset) : Except Fault Bank :=
  if dataset.rows.isEmpty then .error .emptyTrainingSet
  else
    match dataset.rows.find? fun row => row.length ≠ bank.columns.length with
    | some row => .error (.shapeMismatch bank.columns.length row.length)
    | none => do
        let standardizer := Standardizer.fit dataset.rows
        let rows := (dataset.rows.map standardizer.transform).toArray
        let holdout := Holdout.draw rows.size bank.settings.holdoutFraction bank.settings.seed
        let trained ← trainAll bank.settings dataset rows holdout Optimization.all
        return {
          bank with
          standardizer := some standardizer
          learners := .ofList (trained.map fun (optimization, learner, _) =>
            (optimization, learner))
          summary := some {
            samples := dataset.rows.length
            columns := bank.columns.length
            seed := bank.settings.seed
            holdoutAccuracy := .ofList (trained.map fun (optimization, _, accuracy) =>
              (optimization, accuracy)) } }

/-- The bank trained on rows drawn from its own regimes. -/
def train (bank : Bank) : Except Fault Bank := do
  refuse bank.settings.problem?
  bank.trainOn (← Dataset.synthesize bank.settings.regimes bank.settings.seed)

/-- A trained bank for these settings. -/
def trained (settings : TrainingSettings) : Except Fault Bank :=
  (untrained settings).train

/-- The standardized row of the inputs. -/
def row (bank : Bank) (inputs : Inputs) : Except Fault (List Float) :=
  match bank.standardizer with
  | none => .error .notTrained
  | some standardizer =>
      let raw := inputs.project bank.columns
      if standardizer.width ≠ raw.length then
        .error (.shapeMismatch standardizer.width raw.length)
      else .ok (standardizer.transform raw)

/-- The prediction for one optimization from the standardized row of the inputs. -/
def predictRow (bank : Bank) (inputs : Inputs) (row : List Float)
    (optimization : Optimization)
    : Except Fault Prediction :=
  match bank.learners.get? optimization with
  | none => .error .notTrained
  | some learner =>
      let decision := learner.decide row
      .ok {
        optimization := optimization
        apply := decision.apply
        confidence := decision.confidence
        rationale := optimization.explain decision.apply inputs decision.confidence }

/-- The prediction for one optimization. -/
def predictOne (bank : Bank) (inputs : Inputs) (optimization : Optimization)
    : Except Fault Prediction := do
  bank.predictRow inputs (← bank.row inputs) optimization

/-- The predictions for all optimizations. -/
def predict (bank : Bank) (inputs : Inputs) : Except Fault (PerOptimization Prediction) := do
  let row ← bank.row inputs
  let predictions ← Optimization.all.mapM (bank.predictRow inputs row)
  return .ofList (predictions.map fun p => (p.optimization, p))

end Bank

end Learning

end RangeTuner
