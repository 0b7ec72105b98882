import Mathlib.Data.List.Forall2
import RangeTuner.Proofs.Rewrite.Run
import RangeTuner.Provenance

/-! Provenance agrees with the run. A run leaves records of what came of the approved
optimizations, and provenance tells the fate of every decision from these records alone. Main
statement: the run is the fold of the approved templates, and every fate is what happened to the
optimization at its turn.
-/

namespace RangeTuner

open RangeTuner.Rewrite RangeTuner.Spec

/-- The entry tells what became of a decision in a run: it repeats what the decision says, and its
fate is what the template of the optimization did to the text it found at its turn.
-/
structure ProvenanceEntry.TellsOf (settings : Settings) (facts : Facts) (report : GateReport)
    (text : List Char) (decision : GateDecision) (entry : ProvenanceEntry)
    : Prop where
  optimization : entry.optimization = decision.optimization
  confidence : entry.confidence = decision.confidence
  explanation : entry.explanation = decision.rationale
  applied
    : entry.fate = .applied
      ↔ decision.isApproved = true
        ∧ transform settings facts decision.optimization
            (textAtTurn settings facts report text decision.optimization)
          ≠ textAtTurn settings facts report text decision.optimization
  preconditionFailed
    : entry.fate = .preconditionFailed
      ↔ decision.isApproved = true
        ∧ authorizes settings facts decision.optimization = false
  noMatch
    : entry.fate = .noMatch
      ↔ decision.isApproved = true
        ∧ authorizes settings facts decision.optimization = true
        ∧ transform settings facts decision.optimization
            (textAtTurn settings facts report text decision.optimization)
          = textAtTurn settings facts report text decision.optimization
  gate
    : ∀ verdict, entry.fate = .gate verdict
      ↔ decision.isApproved = false ∧ decision.verdict = verdict

variable {settings : Settings} {facts : Facts} {report : GateReport}

-----------------------------------------------------------------------------------------
-- The fate of an outcome
-----------------------------------------------------------------------------------------

theorem Fate.ofOutcome?_eq_applied_iff {outcome : EditOutcome}
    : Fate.ofOutcome? (some outcome) = .applied ↔ outcome = .applied := by
  cases outcome <;> simp [ofOutcome?]

theorem Fate.ofOutcome?_eq_preconditionFailed_iff {outcome : EditOutcome}
    : Fate.ofOutcome? (some outcome) = .preconditionFailed
      ↔ outcome = .preconditionFailed := by
  cases outcome <;> simp [ofOutcome?]

theorem Fate.ofOutcome?_eq_noMatch_iff {outcome : EditOutcome}
    : Fate.ofOutcome? (some outcome) = .noMatch ↔ outcome = .noMatch := by
  cases outcome <;> simp [ofOutcome?]

/-- No outcome is told as a verdict of the gate. -/
theorem Fate.ofOutcome?_ne_gate (outcome : Option EditOutcome) (verdict : Verdict)
    : Fate.ofOutcome? outcome ≠ .gate verdict := by
  rcases outcome with _ | (_ | _ | _) <;> simp [ofOutcome?]

-----------------------------------------------------------------------------------------
-- Entries and decisions
-----------------------------------------------------------------------------------------

namespace ProvenanceEntry

/-- The outcome found for an approved optimization is the one at its turn. -/
theorem outcomeOf?_apply {optimization : Optimization}
    (approved : report.approves optimization = true) (text : List Char)
    : outcomeOf? (apply settings facts report text).edits optimization
      = some (outcome settings facts optimization
          (textAtTurn settings facts report text optimization)) := by
  have turn : optimization ∈ turns report :=
    List.mem_filter.mpr ⟨Optimization.mem_all optimization, approved⟩
  have found
      : ((turns report).find? fun o => decide (o = optimization)) = some optimization := by
    cases first : (turns report).find? fun o => decide (o = optimization) with
    | none => simpa using List.find?_eq_none.mp first optimization turn
    | some o => simpa using List.find?_some first
  rw [outcomeOf?, apply_eq, records_eq_map (turns_nodup report), List.find?_map]
  simp only [Function.comp_def, found, Option.map_some, textAtTurn]

/-- The fate of an approved decision is the outcome of its template at its turn. -/
theorem fate_of_approved (distinct : report.Distinct) {decision : GateDecision}
    (member : decision ∈ report.decisions) (approved : decision.isApproved = true)
    (text : List Char)
    : (ofDecision (apply settings facts report text).edits decision).fate
      = .ofOutcome? (some (outcome settings facts decision.optimization
          (textAtTurn settings facts report text decision.optimization))) := by
  have passes := (GateReport.approves_of_mem distinct member).trans approved
  simp only [ofDecision, approved, if_true, outcomeOf?_apply passes]

theorem fate_of_not_approved {decision : GateDecision} (edits : List Edit)
    (refused : decision.isApproved = false)
    : (ofDecision edits decision).fate = .gate decision.verdict := by
  simp [ofDecision, refused]

/-- The entry of an approved decision tells what became of it. -/
theorem tellsOf_of_approved (distinct : report.Distinct) {decision : GateDecision}
    (member : decision ∈ report.decisions) (approved : decision.isApproved = true)
    (text : List Char)
    : TellsOf settings facts report text decision
        (ofDecision (apply settings facts report text).edits decision) := by
  have told : (ofDecision (apply settings facts report text).edits decision).fate = _ :=
    fate_of_approved distinct member approved text
  have authorized : authorizes settings facts decision.optimization = true
      → transform settings facts decision.optimization
          (textAtTurn settings facts report text decision.optimization)
        = rewrite settings facts decision.optimization
            (textAtTurn settings facts report text decision.optimization) := by
    intro authorized
    simp only [transform, authorized, if_true]
  refine ⟨rfl, rfl, rfl, ?_, ?_, ?_, ?_⟩
  · rw [told, Fate.ofOutcome?_eq_applied_iff, outcome_eq_applied_iff, approved]
    simp
  · rw [told, Fate.ofOutcome?_eq_preconditionFailed_iff, outcome_eq_preconditionFailed_iff,
      approved]
    simp
  · rw [told, Fate.ofOutcome?_eq_noMatch_iff, outcome_eq_noMatch_iff, approved]
    simp +contextual [authorized]
  · intro verdict
    simp [told, approved, Fate.ofOutcome?_ne_gate]

theorem tellsOf_of_not_approved {decision : GateDecision}
    (refused : decision.isApproved = false) (text : List Char)
    : TellsOf settings facts report text decision
        (ofDecision (apply settings facts report text).edits decision) := by
  have told := fate_of_not_approved (apply settings facts report text).edits refused
  refine ⟨rfl, rfl, rfl, ?_, ?_, ?_, ?_⟩
  · simp [told, refused]
  · simp [told, refused]
  · simp [told, refused]
  · simp [told, refused]

/-- Every entry tells what became of its decision. -/
theorem forall₂_tellsOf (distinct : report.Distinct) (text : List Char)
    : List.Forall₂ (TellsOf settings facts report text) report.decisions
        (all report (apply settings facts report text).edits) := by
  rw [all, List.forall₂_map_right_iff, List.forall₂_same]
  intro decision member
  cases approved : decision.isApproved with
  | true => exact tellsOf_of_approved distinct member approved text
  | false => exact tellsOf_of_not_approved approved text

end ProvenanceEntry

-----------------------------------------------------------------------------------------
-- Runs and reports
-----------------------------------------------------------------------------------------

/-- Where reports decide on each optimization once, their approved ones decide on the run. -/
theorem apply_congr_approved (distinct : report.Distinct) {other : GateReport}
    (otherDistinct : other.Distinct)
    (same : ∀ optimization,
      optimization ∈ other.approvedOptimizations ↔ optimization ∈ report.approvedOptimizations)
    (text : List Char)
    : apply settings facts other text = apply settings facts report text := by
  refine apply_congr (fun optimization => ?_) text
  rw [Bool.eq_iff_iff, GateReport.approves_iff_mem otherDistinct,
    GateReport.approves_iff_mem distinct, same]

/-- The order of the decisions does not matter for the run. -/
theorem apply_congr_perm (distinct : report.Distinct) {other : GateReport}
    (reordered : other.decisions.Perm report.decisions) (text : List Char)
    : apply settings facts other text = apply settings facts report text := by
  have otherDistinct : other.Distinct := (reordered.map _).nodup_iff.mpr distinct
  refine apply_congr_approved distinct otherDistinct (fun optimization => ?_) text
  exact ((reordered.filter _).map _).mem_iff

/-- The optimizations that get a turn are the approved ones, in declaration order. -/
theorem turns_eq_filter (distinct : report.Distinct)
    : turns report
      = Optimization.all.filter fun optimization =>
          optimization ∈ report.approvedOptimizations := by
  refine List.filter_congr fun optimization _ => ?_
  rw [Bool.eq_iff_iff, GateReport.approves_iff_mem distinct, decide_eq_true_iff]

/-- A run whose entries tell of no edit leaves the text. -/
theorem text_apply_eq_self (distinct : report.Distinct) {text : List Char}
    (idle : ∀ entry ∈ ProvenanceEntry.all report (apply settings facts report text).edits,
      entry.isApplied = false)
    : (apply settings facts report text).text = text := by
  rw [apply_eq]
  refine textAfter_eq_self fun edit recorded applied => ?_
  rw [records_eq_map (turns_nodup report)] at recorded
  obtain ⟨optimization, turn, rfl⟩ := List.mem_map.mp recorded
  have approved := GateReport.mem_approvedOptimizations_of_approves (List.mem_filter.mp turn).2
  obtain ⟨decision, passes, rfl⟩ := List.mem_map.mp approved
  obtain ⟨member, approved⟩ := List.mem_filter.mp passes
  have told := idle _ (List.mem_map_of_mem member)
  rw [ProvenanceEntry.isApplied,
    ProvenanceEntry.fate_of_approved distinct member approved] at told
  exact (decide_eq_false_iff_not.mp told)
    (Fate.ofOutcome?_eq_applied_iff.mpr applied)

/-- Main statement: where a report decides on each optimization once, the run is the fold of the
approved templates in declaration order, each recorded once with its outcome at its turn. Nothing
else of the report matters for it, and the entries tell what became of every decision.
-/
theorem run_agrees_with_provenance (settings : Settings) (facts : Facts) (report : GateReport)
    (distinct : report.Distinct) (text : List Char)
    : (turns report
        = Optimization.all.filter fun optimization =>
            optimization ∈ report.approvedOptimizations)
      ∧ (apply settings facts report text).text
        = (turns report).foldl
            (fun text optimization => transform settings facts optimization text) text
      ∧ (apply settings facts report text).edits
        = ((turns report).map fun optimization =>
            ⟨optimization, outcome settings facts optimization
              (textAtTurn settings facts report text optimization)⟩)
      ∧ (∀ other : GateReport, other.Distinct
        → (∀ optimization, optimization ∈ other.approvedOptimizations
            ↔ optimization ∈ report.approvedOptimizations)
        → apply settings facts other text = apply settings facts report text)
      ∧ (∀ other : GateReport, other.decisions.Perm report.decisions
        → apply settings facts other text = apply settings facts report text)
      ∧ List.Forall₂ (ProvenanceEntry.TellsOf settings facts report text) report.decisions
          (ProvenanceEntry.all report (apply settings facts report text).edits)
      ∧ ((∀ entry ∈ ProvenanceEntry.all report (apply settings facts report text).edits,
          entry.isApplied = false)
        → (apply settings facts report text).text = text) := by
  refine ⟨turns_eq_filter distinct, ?_, ?_, ?_, ?_, ?_, ?_⟩
  · rw [apply_eq]
    rfl
  · rw [apply_eq]
    exact records_eq_map (turns_nodup report) text
  · exact fun other otherDistinct same => apply_congr_approved distinct otherDistinct same text
  · exact fun other reordered => apply_congr_perm distinct reordered text
  · exact ProvenanceEntry.forall₂_tellsOf distinct text
  · exact text_apply_eq_self distinct

/-- A report that approves the first optimization it decides on, and not the second. -/
def twoDecisions : GateReport where
  threshold := 0.7
  decisions := [
    ⟨.removeNullGuards, .approved, 0.9, "no null input"⟩,
    ⟨.narrowCoordinates, .rejected, 0.8, "wide area"⟩]

/-- Its run removes a guard, and its entries tell so. -/
theorem run_agrees_of_two_decisions
    : twoDecisions.Distinct
      ∧ (apply .standard .conservative twoDecisions "if (p == NULL) { return; }".toList).edits
        = [⟨.removeNullGuards, .applied⟩]
      ∧ List.Forall₂
          (ProvenanceEntry.TellsOf .standard .conservative twoDecisions
            "if (p == NULL) { return; }".toList)
          twoDecisions.decisions
          (ProvenanceEntry.all twoDecisions [⟨.removeNullGuards, .applied⟩]) := by
  have distinct : twoDecisions.Distinct := by decide
  obtain ⟨-, -, edits, -, -, told, -⟩ :=
    run_agrees_with_provenance .standard .conservative twoDecisions distinct
      "if (p == NULL) { return; }".toList
  have recorded := edits.trans
    (by decide +kernel : _ = [(⟨.removeNullGuards, .applied⟩ : Edit)])
  exact ⟨distinct, recorded, recorded ▸ told⟩

end RangeTuner
