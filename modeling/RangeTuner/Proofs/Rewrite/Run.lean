import RangeTuner.Proofs.Gate.Approval
import RangeTuner.Rewrite.Engine

/-! A run of the engine. Its steps for optimizations that are not approved do nothing, so a run is
the fold of the approved templates, and the records of a run tell what each of them did at its
turn. Main statements: the text and the records of a run, and what a record says about the text at
its turn.
-/

namespace RangeTuner.Rewrite

open RangeTuner.Spec

/-- The text after the templates of these optimizations, one after the other. -/
def textAfter (settings : Settings) (facts : Facts) (optimizations : List Optimization)
    (text : List Char)
    : List Char :=
  optimizations.foldl (fun text optimization => transform settings facts optimization text) text

/-- The records of the templates of these optimizations, each on what the one before it left. -/
def records (settings : Settings) (facts : Facts) : List Optimization → List Char → List Edit
  | [], _ => []
  | optimization :: rest, text =>
      ⟨optimization, outcome settings facts optimization text⟩
      :: records settings facts rest (transform settings facts optimization text)

/-- The optimizations whose templates get a turn, in the order of their turns. -/
def turns (report : GateReport) : List Optimization :=
  Optimization.all.filter report.approves

/-- The text that the template of an optimization finds at its turn. -/
def textAtTurn (settings : Settings) (facts : Facts) (report : GateReport) (text : List Char)
    (optimization : Optimization)
    : List Char :=
  textAfter settings facts ((turns report).takeWhile (· ≠ optimization)) text

variable {settings : Settings} {facts : Facts} {report : GateReport}

-----------------------------------------------------------------------------------------
-- One step and a whole run
-----------------------------------------------------------------------------------------

/-- A template changes nothing a second time if its edit does not, or is not authorized. -/
theorem transform_again_iff {optimization : Optimization} {text : List Char}
    : transform settings facts optimization (transform settings facts optimization text)
        = transform settings facts optimization text
      ↔ (authorizes settings facts optimization = true
        → rewrite settings facts optimization (rewrite settings facts optimization text)
          = rewrite settings facts optimization text) := by
  unfold transform
  by_cases authorized : authorizes settings facts optimization = true <;> simp [authorized]

theorem step_of_not_approved {optimization : Optimization} (done : Transformed)
    (refused : report.approves optimization = false)
    : step settings facts report done optimization = done := by
  simp [step, refused]

/-- A step for what is approved applies its template and adds its record. -/
theorem step_of_approved {optimization : Optimization} (done : Transformed)
    (approved : report.approves optimization = true)
    : step settings facts report done optimization
      = ⟨transform settings facts optimization done.text,
          done.edits ++ [⟨optimization, outcome settings facts optimization done.text⟩]⟩ := by
  simp [step, approved]

/-- A run over any optimizations applies the approved ones among them and adds their records, by
induction on the optimizations.
-/
theorem foldl_step (optimizations : List Optimization) (done : Transformed)
    : optimizations.foldl (step settings facts report) done
      = ⟨textAfter settings facts (optimizations.filter report.approves) done.text,
          done.edits
            ++ records settings facts (optimizations.filter report.approves) done.text⟩ := by
  induction optimizations generalizing done with
  | nil => simp [textAfter, records]
  | cons first rest ih =>
      rw [List.foldl_cons, ih]
      cases approved : report.approves first with
      | false =>
          rw [step_of_not_approved done approved,
            List.filter_cons_of_neg (by simp [approved])]
      | true =>
          rw [step_of_approved done approved, List.filter_cons_of_pos approved]
          simp only [textAfter, records, List.foldl_cons, List.append_assoc,
            List.singleton_append]

/-- The text and the records of a run are those of the approved templates, in their turns. -/
theorem apply_eq (text : List Char)
    : apply settings facts report text
      = ⟨textAfter settings facts (turns report) text,
          records settings facts (turns report) text⟩ :=
  foldl_step Optimization.all ⟨text, []⟩

theorem turns_nodup (report : GateReport) : (turns report).Nodup :=
  List.filter_sublist.nodup (by decide : Optimization.all.Nodup)

/-- Two reports that approve the same optimizations lead to the same run. -/
theorem apply_congr {other : GateReport}
    (same : ∀ optimization, other.approves optimization = report.approves optimization)
    (text : List Char)
    : apply settings facts other text = apply settings facts report text := by
  have turnsSame : turns other = turns report := by
    unfold turns
    rw [funext same]
  rw [apply_eq, apply_eq, turnsSame]

-----------------------------------------------------------------------------------------
-- What the records say
-----------------------------------------------------------------------------------------

/-- The records of different templates are one for each, with what came of it on the text that the
templates before it left, by induction on the templates.
-/
theorem records_eq_map {optimizations : List Optimization} (distinct : optimizations.Nodup)
    (text : List Char)
    : records settings facts optimizations text
      = optimizations.map fun optimization =>
          ⟨optimization, outcome settings facts optimization
            (textAfter settings facts (optimizations.takeWhile (· ≠ optimization)) text)⟩ := by
  induction optimizations generalizing text with
  | nil => rfl
  | cons first rest ih =>
      obtain ⟨fresh, distinct⟩ := List.nodup_cons.mp distinct
      have before : ∀ optimization ∈ rest,
          (first :: rest).takeWhile (· ≠ optimization)
            = first :: rest.takeWhile (· ≠ optimization) := by
        intro optimization member
        have differs : first ≠ optimization := fun same => fresh (same ▸ member)
        exact List.takeWhile_cons_of_pos (by simpa using differs)
      rw [records, ih distinct, List.map_cons]
      congr 1
      · simp [textAfter]
      · refine List.map_congr_left fun optimization member => ?_
        rw [before optimization member]
        rfl

/-- Every record of a run tells what came of an approved optimization on some text. -/
theorem exists_text_of_mem_records {optimizations : List Optimization} {text : List Char}
    {edit : Edit} (member : edit ∈ records settings facts optimizations text)
    : ∃ found, edit.outcome = outcome settings facts edit.optimization found := by
  induction optimizations generalizing text with
  | nil => cases member
  | cons first rest ih =>
      rcases List.mem_cons.mp member with rfl | later
      · exact ⟨text, rfl⟩
      · exact ih later

theorem outcome_eq_preconditionFailed_iff {optimization : Optimization} {text : List Char}
    : outcome settings facts optimization text = .preconditionFailed
      ↔ authorizes settings facts optimization = false := by
  unfold outcome
  cases authorizes settings facts optimization
  · simp
  · by_cases same : rewrite settings facts optimization text = text <;> simp [same]

theorem outcome_eq_noMatch_iff {optimization : Optimization} {text : List Char}
    : outcome settings facts optimization text = .noMatch
      ↔ authorizes settings facts optimization = true
        ∧ rewrite settings facts optimization text = text := by
  unfold outcome
  cases authorizes settings facts optimization
  · simp
  · by_cases same : rewrite settings facts optimization text = text <;> simp [same]

/-- An optimization is applied where its template changes the text. -/
theorem outcome_eq_applied_iff {optimization : Optimization} {text : List Char}
    : outcome settings facts optimization text = .applied
      ↔ transform settings facts optimization text ≠ text := by
  unfold outcome transform
  cases authorizes settings facts optimization
  · simp
  · by_cases same : rewrite settings facts optimization text = text <;> simp [same]

theorem authorizes_of_outcome_applied {optimization : Optimization} {text : List Char}
    (applied : outcome settings facts optimization text = .applied)
    : authorizes settings facts optimization = true := by
  cases authorized : authorizes settings facts optimization with
  | true => rfl
  | false =>
      rw [outcome_eq_preconditionFailed_iff.mpr authorized] at applied
      cases applied

/-- A run records only authorized optimizations as applied. -/
theorem authorizes_of_applied {optimization : Optimization} {text : List Char}
    (member : ⟨optimization, .applied⟩ ∈ (apply settings facts report text).edits)
    : authorizes settings facts optimization = true := by
  rw [apply_eq] at member
  obtain ⟨found, came⟩ := exists_text_of_mem_records member
  exact authorizes_of_outcome_applied came.symm

/-- Templates that would change nothing, or are not authorized, leave the text, by induction on
them.
-/
theorem textAfter_eq_self {optimizations : List Optimization} {text : List Char}
    (idle : ∀ edit ∈ records settings facts optimizations text, edit.outcome ≠ .applied)
    : textAfter settings facts optimizations text = text := by
  induction optimizations generalizing text with
  | nil => rfl
  | cons first rest ih =>
      have unchanged : transform settings facts first text = text :=
        Decidable.byContradiction fun changed =>
          idle _ List.mem_cons_self (outcome_eq_applied_iff.mpr changed)
      simp only [records, unchanged] at idle
      simp only [textAfter, List.foldl_cons, unchanged]
      exact ih fun edit member => idle edit (List.mem_cons_of_mem _ member)

/-- Templates that are not authorized can be left out, by induction on the templates. -/
theorem textAfter_filter (optimizations : List Optimization) (text : List Char)
    : textAfter settings facts (optimizations.filter (authorizes settings facts)) text
      = textAfter settings facts optimizations text := by
  induction optimizations generalizing text with
  | nil => rfl
  | cons first rest ih =>
      cases authorized : authorizes settings facts first with
      | true =>
          rw [List.filter_cons_of_pos authorized]
          exact ih _
      | false =>
          have unchanged : transform settings facts first text = text := by
            simp [transform, authorized]
          rw [List.filter_cons_of_neg (by simp [authorized]), ih]
          simp only [textAfter, List.foldl_cons, unchanged]

end RangeTuner.Rewrite
