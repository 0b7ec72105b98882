import Mathlib
import RangeTuner.Proofs.Decimal.Ranks
import RangeTuner.Proofs.Gate.Approval

/-! What a report and a summary count. The summary counts predictions by what they recommend and
verdicts from the report, and the threshold only divides each side in two. Main statement: a report
decides on every prediction once and approves what is recommended with a confidence above the
threshold, the counts of the summary add up, and a higher threshold approves no more and leaves
every prediction on its side.
-/

namespace RangeTuner

open RangeTuner.Learning

/-- The verdict is on the side of applying the optimization. -/
def Verdict.recommends : Verdict → Bool
  | approved | suppressed => true
  | rejected | indeterminate => false

/-- The optimizations decided on, each with the side that its verdict is on. -/
def GateReport.sides (report : GateReport) : List (Optimization × Bool) :=
  report.decisions.map fun decision => (decision.optimization, decision.verdict.recommends)

/-- The optimizations with a prediction that passes a test, in declaration order. -/
def passing (predictions : PerOptimization Prediction) (test : Prediction → Bool)
    : List Optimization :=
  Optimization.all.filter fun optimization => (predictions.get? optimization).any test

/-- A report on predictions tells what a threshold makes of each, and the numbers of the summary are
the same whether they are counted by predictions or by verdicts.
-/
structure Tallies (predictions : PerOptimization Prediction) (threshold : Float)
    (report : GateReport) : Prop where
  /-- There is one decision for each prediction, in declaration order. -/
  decided : report.decisions.map GateDecision.optimization = passing predictions fun _ => true
  /-- What is recommended with a confidence above the threshold is approved, and nothing else. -/
  approved : report.approvedOptimizations
    = passing predictions fun p => p.apply && decide (p.confidence > threshold)
  recommended : (Summary.compute predictions report).verdicts .approved
      + (Summary.compute predictions report).verdicts .suppressed
    = (Summary.compute predictions report).recommended
  advisedAgainst : (Summary.compute predictions report).verdicts .rejected
      + (Summary.compute predictions report).verdicts .indeterminate
    = (Summary.compute predictions report).advisedAgainst
  evaluated : (Verdict.all.map (Summary.compute predictions report).verdicts).sum
    = (Summary.compute predictions report).evaluated

namespace Gate

variable {predictions : PerOptimization Prediction}

-----------------------------------------------------------------------------------------
-- Decisions
-----------------------------------------------------------------------------------------

/-- Predictions under their own optimizations lead to decisions in declaration order, and a test of
decisions selects those whose predictions pass it, by induction on the optimizations that are gone
through.
-/
theorem filter_decisions (gate : Gate) (keyed : OwnKeyed predictions) (test : GateDecision → Bool)
    : ((gate.report predictions).decisions.filter test).map GateDecision.optimization
      = passing predictions fun prediction => test (gate.decideOn prediction) := by
  simp only [report, PerOptimization.toList, passing]
  generalize Optimization.all = optimizations
  induction optimizations with
  | nil => rfl
  | cons first rest ih =>
      cases found : predictions.get? first with
      | none => simpa [found] using ih
      | some prediction =>
          have own : (gate.decideOn prediction).optimization = first := keyed first prediction found
          cases passes : test (gate.decideOn prediction) <;> simpa [found, passes, own] using ih

theorem recommends_judge (gate : Gate) (prediction : Prediction)
    : (gate.judge prediction).recommends = prediction.apply := by
  unfold judge
  cases prediction.apply <;> cases decide (prediction.confidence > gate.threshold) <;> rfl

/-- The threshold does not decide on which side a prediction is. -/
theorem sides_report (gate : Gate) (predictions : PerOptimization Prediction)
    : (gate.report predictions).sides
      = predictions.toList.map fun entry => (entry.2.optimization, entry.2.apply) := by
  simp [GateReport.sides, report, decideOn, recommends_judge]

-----------------------------------------------------------------------------------------
-- Counts
-----------------------------------------------------------------------------------------

theorem count_report (gate : Gate) (predictions : PerOptimization Prediction) (verdict : Verdict)
    : (gate.report predictions).count verdict
      = (predictions.toList.map Prod.snd).countP fun p => gate.judge p = verdict := by
  simp only [GateReport.count, report, List.countP_map]
  rfl

/-- The verdicts of a side are those on the predictions of the side, by induction on the
predictions.
-/
theorem countP_judge (gate : Gate) (predictions : List Prediction)
    : (predictions.countP fun p => gate.judge p = .approved)
          + (predictions.countP fun p => gate.judge p = .suppressed)
        = predictions.countP Prediction.apply
      ∧ (predictions.countP fun p => gate.judge p = .rejected)
          + (predictions.countP fun p => gate.judge p = .indeterminate)
        = predictions.length - predictions.countP Prediction.apply := by
  induction predictions with
  | nil => exact ⟨rfl, rfl⟩
  | cons p rest ih =>
      obtain ⟨applied, refused⟩ := ih
      have most := List.countP_le_length (p := Prediction.apply) (l := rest)
      have side := gate.recommends_judge p
      simp only [List.countP_cons, List.length_cons]
      generalize gate.judge p = verdict at side ⊢
      cases verdict <;> simp [← side, Verdict.recommends] <;> omega

/-- What a gate reports tallies with the predictions. -/
theorem report_tallies (gate : Gate) (keyed : OwnKeyed predictions)
    : Tallies predictions gate.threshold (gate.report predictions) := by
  obtain ⟨applied, refused⟩ := gate.countP_judge (predictions.toList.map Prod.snd)
  have most := List.countP_le_length (p := Prediction.apply) (l := predictions.toList.map Prod.snd)
  refine ⟨?_, ?_, ?_, ?_, ?_⟩
  · simpa using gate.filter_decisions keyed fun _ => true
  · refine (gate.filter_decisions keyed GateDecision.isApproved).trans ?_
    simp only [decideOn_isApproved]
  · simpa only [Summary.compute, count_report] using applied
  · simpa only [Summary.compute, count_report] using refused
  · simp only [Summary.compute, Verdict.all, List.map_cons, List.map_nil, List.sum_cons,
      List.sum_nil, count_report]
    omega

/-- A gate has the threshold that it is made of. -/
theorem threshold_of_made {threshold : Float} {gate : Gate}
    (made : ofThreshold threshold = .ok gate)
    : gate.threshold = threshold := by
  unfold ofThreshold at made
  split at made
  next => rw [← Except.ok.inj made]
  next => cases made

/-- What is approved under a higher threshold is approved under a lower one. -/
theorem passing_sublist {lower higher : Float} (le : lower ≤ higher)
    : (passing predictions fun p => p.apply && decide (p.confidence > higher)).Sublist
        (passing predictions fun p => p.apply && decide (p.confidence > lower)) := by
  refine List.monotone_filter_right _ fun optimization passes => ?_
  cases found : predictions.get? optimization with
  | none => simp [found] at passes
  | some p =>
      obtain ⟨applied, above⟩ : p.apply = true ∧ p.confidence > higher := by
        simpa [found] using passes
      simpa [found, applied] using Decimal.float_lt_of_le_of_lt le above

end Gate

/-- Main statement: whatever the predictions are, every threshold from zero to one makes a gate,
whose report tallies with the predictions; and of two such gates the one with the higher threshold
approves some of what the other one does, in the same order, and decides every prediction to the
same side.
-/
theorem gate_and_summary_agree (predictions : PerOptimization Prediction)
    (keyed : OwnKeyed predictions)
    : (∀ threshold, isProbability threshold = true
        → ∃ gate, Gate.ofThreshold threshold = .ok gate
          ∧ Tallies predictions threshold (gate.report predictions))
      ∧ ∀ lower higher gate stricter, lower ≤ higher
        → Gate.ofThreshold lower = .ok gate → Gate.ofThreshold higher = .ok stricter
        → (stricter.report predictions).approvedOptimizations.Sublist
            (gate.report predictions).approvedOptimizations
          ∧ (stricter.report predictions).sides = (gate.report predictions).sides := by
  constructor
  · intro threshold valid
    exact ⟨⟨threshold⟩, if_pos valid, Gate.report_tallies ⟨threshold⟩ keyed⟩
  · intro lower higher gate stricter le made madeStricter
    have tallies := gate.report_tallies keyed
    have talliesStricter := stricter.report_tallies keyed
    obtain rfl := Gate.threshold_of_made made
    obtain rfl := Gate.threshold_of_made madeStricter
    refine ⟨?_, ?_⟩
    · rw [tallies.approved, talliesStricter.approved]
      exact Gate.passing_sublist le
    · rw [Gate.sides_report, Gate.sides_report]

/-- Predictions on three optimizations: one with a confidence between two thresholds, one whose
confidence is no number, and one against its optimization.
-/
def mixedPredictions : PerOptimization Prediction where
  get?
    | .narrowCoordinates => some ⟨.narrowCoordinates, true, 0.65, "between"⟩
    | .planarDistance => some ⟨.planarDistance, true, 0.0 / 0.0, "undefined"⟩
    | .zoneConstants => some ⟨.zoneConstants, false, 0.9, "against"⟩
    | _ => none

theorem mixedPredictions_keyed
    : OwnKeyed mixedPredictions := by
  intro optimization prediction found
  cases optimization <;> cases found <;> rfl

theorem gate_and_summary_agree_on_mixed
    : ∃ gate stricter, Gate.ofThreshold 0.6 = .ok gate ∧ Gate.ofThreshold 0.7 = .ok stricter
      ∧ Tallies mixedPredictions 0.6 (gate.report mixedPredictions)
      ∧ Tallies mixedPredictions 0.7 (stricter.report mixedPredictions)
      ∧ (stricter.report mixedPredictions).approvedOptimizations.Sublist
          (gate.report mixedPredictions).approvedOptimizations
      ∧ (stricter.report mixedPredictions).sides = (gate.report mixedPredictions).sides := by
  obtain ⟨tells, compares⟩ := gate_and_summary_agree mixedPredictions mixedPredictions_keyed
  obtain ⟨gate, made, tallies⟩ := tells 0.6 (by decide +kernel)
  obtain ⟨stricter, madeStricter, talliesStricter⟩ := tells 0.7 (by decide +kernel)
  have both := compares 0.6 0.7 gate stricter (by decide +kernel) made madeStricter
  exact ⟨gate, stricter, made, madeStricter, tallies, talliesStricter, both⟩

end RangeTuner
