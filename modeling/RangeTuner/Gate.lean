import RangeTuner.Learning.Bank

/-! The gate between predictions and edits. An optimization passes when it is recommended with a
confidence strictly above the threshold.
-/

namespace RangeTuner

open RangeTuner.Decimal RangeTuner.Learning

/-- What the gate makes of a prediction. Only an approved optimization leads to an edit. -/
inductive Verdict where
  /-- Recommended with a confidence above the threshold. -/
  | approved
  /-- Recommended with a confidence at or below the threshold. -/
  | suppressed
  /-- Advised against with a confidence above the threshold. -/
  | rejected
  /-- Advised against with a confidence at or below the threshold. -/
  | indeterminate
deriving DecidableEq, Repr

namespace Verdict

/-- All verdicts. -/
def all : List Verdict :=
  [approved, suppressed, rejected, indeterminate]

/-- The verdict's name in data. -/
def name : Verdict → String
  | approved => "approved"
  | suppressed => "suppressed_low_confidence"
  | rejected => "rejected_confident"
  | indeterminate => "indeterminate"

/-- The verdict's name for people. -/
def label : Verdict → String
  | approved => "approved"
  | suppressed => "suppressed (low confidence)"
  | rejected => "rejected"
  | indeterminate => "indeterminate"

end Verdict

/-- The verdict on one optimization. -/
structure GateDecision where
  optimization : Optimization
  verdict : Verdict
  confidence : Float
  rationale : String

/-- The optimization may be applied. -/
def GateDecision.isApproved (decision : GateDecision) : Bool :=
  decision.verdict = .approved

/-- The verdicts on all predictions, in declaration order. -/
structure GateReport where
  threshold : Float
  decisions : List GateDecision

namespace GateReport

/-- The approved decisions. -/
def approved (report : GateReport) : List GateDecision :=
  report.decisions.filter GateDecision.isApproved

/-- The approved optimizations. -/
def approvedOptimizations (report : GateReport) : List Optimization :=
  report.approved.map GateDecision.optimization

/-- The number of decisions with a verdict. -/
def count (report : GateReport) (verdict : Verdict) : Nat :=
  report.decisions.countP fun decision => decision.verdict = verdict

/-- The decision on an optimization, the first of several. -/
def get? (report : GateReport) (optimization : Optimization) : Option GateDecision :=
  report.decisions.find? fun decision => decision.optimization = optimization

/-- The optimization may be applied. -/
def approves (report : GateReport) (optimization : Optimization) : Bool :=
  (report.get? optimization).any GateDecision.isApproved

end GateReport

/-- A gate with a threshold from zero to one. -/
structure Gate where
  threshold : Float

namespace Gate

/-- The threshold used where nothing else is configured. -/
def standardThreshold : Float :=
  0.7

/-- The gate of a threshold. -/
def ofThreshold (threshold : Float) : Except Fault Gate :=
  if isProbability threshold then .ok ⟨threshold⟩
  else .error (.invalidConfig ("gate threshold must be in [0, 1], got " ++ plain threshold))

/-- The verdict on a prediction. -/
def judge (gate : Gate) (prediction : Prediction) : Verdict :=
  match prediction.apply, decide (prediction.confidence > gate.threshold) with
  | true, true => .approved
  | true, false => .suppressed
  | false, true => .rejected
  | false, false => .indeterminate

/-- The decision on a prediction. -/
def decideOn (gate : Gate) (prediction : Prediction) : GateDecision :=
  ⟨prediction.optimization, gate.judge prediction, prediction.confidence, prediction.rationale⟩

/-- The decisions on all predictions. -/
def report (gate : Gate) (predictions : PerOptimization Prediction) : GateReport :=
  ⟨gate.threshold, predictions.toList.map fun entry => gate.decideOn entry.2⟩

end Gate

/-- What predictions and verdicts come to in numbers. -/
structure Summary where
  evaluated : Nat
  recommended : Nat
  advisedAgainst : Nat
  meanConfidence : Float
  recommendationRate : Float
  highlyConfident : Nat
  verdicts : Verdict → Nat

namespace Summary

/-- The confidence that counts as high when it is exceeded. -/
def highConfidence : Float :=
  0.8

/-- A share of a total, zero of nothing. -/
def shareOf (total : Nat) (part : Float) : Float :=
  if total = 0 then 0.0 else part / total.toFloat

/-- The numbers of predictions and of the verdicts on them. -/
def compute (predictions : PerOptimization Prediction) (report : GateReport) : Summary :=
  let all := predictions.toList.map Prod.snd
  let recommended := all.countP Prediction.apply
  {
    evaluated := all.length
    recommended := recommended
    advisedAgainst := all.length - recommended
    meanConfidence := shareOf all.length (Scalar.sum (all.map Prediction.confidence))
    recommendationRate := shareOf all.length recommended.toFloat
    highlyConfident := all.countP fun p => p.confidence > highConfidence
    verdicts := report.count }

end Summary

end RangeTuner
