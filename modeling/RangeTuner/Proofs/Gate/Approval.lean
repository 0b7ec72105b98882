import RangeTuner.Gate
import RangeTuner.Proofs.PerOptimization

/-! Approval by a report. A report is searched for an optimization from its beginning, so where it
decides on each optimization at most once, every decision is the one that is found. Main
statement: then the approved optimizations are exactly those that some approved decision names.
-/

namespace RangeTuner

open RangeTuner.Learning

/-- No two decisions are on one optimization. -/
def GateReport.Distinct (report : GateReport) : Prop :=
  (report.decisions.map GateDecision.optimization).Nodup

instance (report : GateReport) : Decidable report.Distinct :=
  inferInstanceAs (Decidable (List.Nodup _))

namespace GateReport

/-- Among decisions on different optimizations, a search for the optimization of one of them
finds it, by induction on the decisions.
-/
theorem find?_of_mem {decisions : List GateDecision}
    (distinct : (decisions.map GateDecision.optimization).Nodup) {decision : GateDecision}
    (member : decision ∈ decisions)
    : (decisions.find? fun d => d.optimization = decision.optimization) = some decision := by
  induction decisions with
  | nil => cases member
  | cons first rest ih =>
      simp only [List.map_cons, List.nodup_cons] at distinct
      rcases List.mem_cons.mp member with rfl | later
      · simp
      · have differs : first.optimization ≠ decision.optimization := by
          intro same
          exact distinct.1 (same ▸ List.mem_map_of_mem later)
        rw [List.find?_cons_of_neg (by simpa using differs)]
        exact ih distinct.2 later

theorem get?_of_mem {report : GateReport} (distinct : report.Distinct)
    {decision : GateDecision} (member : decision ∈ report.decisions)
    : report.get? decision.optimization = some decision :=
  find?_of_mem distinct member

/-- What is approved is named by an approved decision of the report. -/
theorem mem_approvedOptimizations_of_approves {report : GateReport}
    {optimization : Optimization} (approved : report.approves optimization = true)
    : optimization ∈ report.approvedOptimizations := by
  unfold approves at approved
  cases found : report.get? optimization with
  | none => simp [found] at approved
  | some decision =>
      have passes : decision.isApproved = true := by simpa [found] using approved
      have named : decision.optimization = optimization := by simpa using List.find?_some found
      have member := List.mem_of_find?_eq_some found
      exact List.mem_map.mpr ⟨decision, List.mem_filter.mpr ⟨member, passes⟩, named⟩

/-- In a report of different decisions, what is approved is what an approved decision names. -/
theorem approves_iff_mem {report : GateReport} (distinct : report.Distinct)
    (optimization : Optimization)
    : report.approves optimization = true ↔ optimization ∈ report.approvedOptimizations := by
  refine ⟨mem_approvedOptimizations_of_approves, ?_⟩
  intro named
  obtain ⟨decision, passes, rfl⟩ := List.mem_map.mp named
  obtain ⟨member, approved⟩ := List.mem_filter.mp passes
  simp only [approves, get?_of_mem distinct member, Option.any_some, approved]

/-- In a report of different decisions, a decision is approved when its optimization is. -/
theorem approves_of_mem {report : GateReport} (distinct : report.Distinct)
    {decision : GateDecision} (member : decision ∈ report.decisions)
    : report.approves decision.optimization = decision.isApproved := by
  simp only [approves, get?_of_mem distinct member, Option.any_some]

end GateReport

-----------------------------------------------------------------------------------------
-- Reports of the gate
-----------------------------------------------------------------------------------------

/-- Every prediction stands under the optimization that it is about. -/
def OwnKeyed (predictions : PerOptimization Prediction) : Prop :=
  ∀ optimization prediction, predictions.get? optimization = some prediction
    → prediction.optimization = optimization

namespace Gate

variable {predictions : PerOptimization Prediction}

/-- Predictions under their own optimizations lead to decisions on different optimizations: the
ones that have a prediction, in declaration order.
-/
theorem report_distinct (gate : Gate) (keyed : OwnKeyed predictions)
    : (gate.report predictions).Distinct := by
  have named : (gate.report predictions).decisions.map GateDecision.optimization
      = predictions.toList.map Prod.fst := by
    rw [report, List.map_map]
    exact List.map_congr_left fun entry listed =>
      keyed entry.1 entry.2 (PerOptimization.mem_toList_iff.mp listed)
  rw [GateReport.Distinct, named]
  exact predictions.nodup_toList

/-- The decision found for an optimization is the one on its prediction. -/
theorem get?_report (gate : Gate) (keyed : OwnKeyed predictions) (optimization : Optimization)
    : (gate.report predictions).get? optimization
      = (predictions.get? optimization).map gate.decideOn := by
  cases found : predictions.get? optimization with
  | some prediction =>
      have member : gate.decideOn prediction ∈ (gate.report predictions).decisions :=
        List.mem_map.mpr ⟨_, PerOptimization.mem_toList_iff.mpr found, rfl⟩
      have own : (gate.decideOn prediction).optimization = optimization :=
        keyed optimization prediction found
      have first := GateReport.get?_of_mem (gate.report_distinct keyed) member
      rwa [own] at first
  | none =>
      refine List.find?_eq_none.mpr fun decision listed named => ?_
      obtain ⟨⟨other, prediction⟩, entry, rfl⟩ := List.mem_map.mp listed
      have present := PerOptimization.mem_toList_iff.mp entry
      have own : prediction.optimization = other := keyed other prediction present
      have same : prediction.optimization = optimization := of_decide_eq_true named
      rw [← own, same, found] at present
      cases present

theorem decideOn_isApproved (gate : Gate) (prediction : Prediction)
    : (gate.decideOn prediction).isApproved
      = (prediction.apply && decide (prediction.confidence > gate.threshold)) := by
  unfold decideOn GateDecision.isApproved judge
  cases prediction.apply <;> cases decide (prediction.confidence > gate.threshold) <;> rfl

/-- The gate approves what is recommended with a confidence above its threshold, when predictions
stand under their own optimizations.
-/
theorem report_approves (gate : Gate) (keyed : OwnKeyed predictions)
    (optimization : Optimization)
    : (gate.report predictions).approves optimization
      = (predictions.get? optimization).any fun prediction =>
          prediction.apply && decide (prediction.confidence > gate.threshold) := by
  rw [GateReport.approves, gate.get?_report keyed, Option.any_map]
  congr 1
  funext prediction
  exact gate.decideOn_isApproved prediction

end Gate

end RangeTuner
