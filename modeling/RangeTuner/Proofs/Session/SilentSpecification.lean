import RangeTuner.Proofs.Rewrite.Caution
import RangeTuner.Proofs.Spec.Declaration
import RangeTuner.Session

/-! Sessions without a specification, or with one that declares nothing. Whatever is predicted,
only null guards are removed. Main statement: what such a session writes, records and tells.
-/

namespace RangeTuner

open RangeTuner.Learning RangeTuner.Rewrite RangeTuner.Source RangeTuner.Spec

/-- An outcome other than an edit is told as a fate other than an edit. -/
theorem ProvenanceEntry.fate_ne_applied {edits : List Edit} {decision : GateDecision}
    (idle : ∀ edit ∈ edits, edit.optimization = decision.optimization
      → edit.outcome ≠ .applied)
    : (ofDecision edits decision).fate ≠ .applied := by
  unfold ofDecision outcomeOf?
  cases decision.isApproved with
  | false => simp
  | true =>
      cases found : edits.find? fun edit => edit.optimization = decision.optimization with
      | none => simp [Fate.ofOutcome?]
      | some edit =>
          have named : edit.optimization = decision.optimization := by
            simpa using List.find?_some found
          have outcome := idle edit (List.mem_of_find?_eq_some found) named
          cases came : edit.outcome with
          | applied => exact absurd came outcome
          | preconditionFailed => simp [came, Fate.ofOutcome?]
          | noMatch => simp [came, Fate.ofOutcome?]

/-- The source without its null guards if their removal is approved, and as it is otherwise. -/
def withoutNullGuards (report : GateReport) (source : List Char) : List Char :=
  if report.approves .removeNullGuards then NullGuards.rewrite source else source

/-- Main statement: under a silent specification, or without one, a session removes null guards if
that is approved and does nothing else, whatever the predictions are. Approved aggressive
optimizations are recorded as not authorized, and no entry tells of an aggressive edit.
-/
theorem rewrite_under_silent_specification (session : Session)
    (cautious : session.templates.Cautious) (spec : Option (List Char))
    (silent : ∀ text ∈ spec, Silent text) (predictions : PerOptimization Prediction)
    (analysis : Analysis) (known : analysis.facts = session.facts spec)
    (judged : analysis.gate = session.gate.report predictions) (source : List Char)
    : (Rewrite.apply session.templates analysis.facts analysis.gate source).text
        = withoutNullGuards analysis.gate source
      ∧ (session.rewrite source analysis).output
        = Provenance.annotate Provenance.requiredHeaders
            (session.rewrite source analysis).provenance
            (withoutNullGuards analysis.gate source)
      ∧ (∀ optimization, optimization.isAggressive = true
        → analysis.gate.approves optimization = true
        → ⟨optimization, .preconditionFailed⟩ ∈ (session.rewrite source analysis).edits)
      ∧ (∀ edit ∈ (session.rewrite source analysis).edits,
        edit.optimization.isAggressive = true → edit.outcome = .preconditionFailed)
      ∧ (∀ entry ∈ (session.rewrite source analysis).provenance,
        entry.optimization.isAggressive = true → entry.fate ≠ .applied)
      ∧ (OwnKeyed predictions
        → ∀ optimization, analysis.gate.approves optimization
          = (predictions.get? optimization).any fun prediction =>
              prediction.apply && decide (prediction.confidence > session.gate.threshold)) := by
  have conservative : analysis.facts = .conservative := known.trans (read_of_silent _ silent)
  have text
      : (Rewrite.apply session.templates analysis.facts analysis.gate source).text
        = withoutNullGuards analysis.gate source := by
    rw [conservative]
    exact text_apply_conservative cautious source
  have idle : ∀ edit ∈ (session.rewrite source analysis).edits,
      edit.optimization.isAggressive = true → edit.outcome = .preconditionFailed := by
    intro edit member aggressive
    simp only [Session.rewrite, conservative] at member
    exact outcome_of_mem_edits_conservative cautious member aggressive
  refine ⟨text, ?_, ?_, idle, ?_, ?_⟩
  · simp only [Session.rewrite, text]
  · intro optimization aggressive approved
    simp only [Session.rewrite, conservative]
    exact mem_edits_apply_conservative cautious aggressive approved source
  · intro entry member aggressive
    obtain ⟨decision, -, rfl⟩ := List.mem_map.mp member
    refine ProvenanceEntry.fate_ne_applied fun edit within named applied => ?_
    have outcome := idle edit within (named ▸ aggressive)
    rw [applied] at outcome
    cases outcome
  · intro keyed optimization
    rw [judged, Gate.report_approves session.gate keyed]

/-- Every optimization is recommended with full confidence. -/
def unanimous : PerOptimization Prediction :=
  .tabulate fun optimization => ⟨optimization, true, 1.0, "always"⟩

/-- A session under the standard settings. -/
def standardSession : Session where
  bank := .untrained .standard
  thresholds := .standard
  gate := ⟨Gate.standardThreshold⟩
  templates := .standard

/-- An analysis that follows unanimous recommendations under some facts. -/
def unanimousAnalysis (facts : Facts) : Analysis where
  sourceDigest := ""
  specDigest := none
  features := .ofLines 1
  facts := facts
  predictions := unanimous
  gate := standardSession.gate.report unanimous
  summary := .compute unanimous (standardSession.gate.report unanimous)

/-- A remark declares nothing. -/
theorem silent_remark : Silent "nothing is known".toList := by
  have lines : Text.lines "nothing is known".toList = ["nothing is known".toList] := by decide
  refine ⟨fun line member directive said => ?_, by decide +kernel⟩
  rw [lines] at member
  obtain rfl := List.mem_singleton.mp member
  rw [ofLine?_of_not_startsWith (by decide) (by decide)] at said
  cases said

/-- Under a remark, unanimous recommendations lead to the removal of null guards alone. -/
theorem rewrite_of_unanimous_recommendations
    : ∃ facts, facts = standardSession.facts (some "nothing is known".toList)
      ∧ standardSession.templates.Cautious
      ∧ Silent "nothing is known".toList
      ∧ (Rewrite.apply standardSession.templates facts (unanimousAnalysis facts).gate
          "if (p == NULL) { return; }".toList).text
        = NullGuards.comment
      ∧ ∀ optimization, optimization.isAggressive = true
        → ⟨optimization, .preconditionFailed⟩
          ∈ (standardSession.rewrite "if (p == NULL) { return; }".toList
              (unanimousAnalysis facts)).edits := by
  have silent : ∀ text ∈ some "nothing is known".toList, Silent text := by
    rintro text ⟨⟩
    exact silent_remark
  -- The facts are kept as a variable, so that no step below evaluates the reading.
  obtain ⟨facts, known⟩
      : ∃ facts, facts = standardSession.facts (some "nothing is known".toList) :=
    ⟨_, rfl⟩
  have approved : ∀ optimization,
      (standardSession.gate.report unanimous).approves optimization = true := by
    intro optimization
    cases optimization <;> decide
  obtain ⟨text, -, refused, -, -, -⟩ :=
    rewrite_under_silent_specification standardSession Settings.standard_cautious
      (some "nothing is known".toList) silent unanimous (unanimousAnalysis facts) known rfl
      "if (p == NULL) { return; }".toList
  refine ⟨facts, known, Settings.standard_cautious, silent_remark, text.trans ?_, ?_⟩
  · refine (if_pos (approved .removeNullGuards)).trans ?_
    decide
  · exact fun optimization aggressive => refused optimization aggressive (approved optimization)

end RangeTuner
