import RangeTuner.Proofs.Learning.Training
import RangeTuner.Proofs.Provenance.Reentry
import RangeTuner.Session

/-! Sessions over texts that they have left. What a bank predicts is explained as the catalogue
does, so optimizing a source is a pass. Main statement: a session that optimizes its own
outputs, under a specification of its own each time, runs passes.
-/

namespace RangeTuner

open RangeTuner.Learning

/-- A bank gives the rationale that the catalogue explains. -/
theorem Learning.Bank.rationale_eq_explain {bank : Bank} {inputs : Inputs}
    {predictions : PerOptimization Prediction} (came : bank.predict inputs = .ok predictions)
    {entry : Optimization × Prediction} (member : entry ∈ predictions.toList)
    : entry.2.rationale
      = entry.2.optimization.explain entry.2.apply inputs entry.2.confidence := by
  obtain ⟨optimization, -, listed⟩ := List.mem_filterMap.mp member
  obtain ⟨prediction, found, rfl⟩ := Option.map_eq_some_iff.mp listed
  obtain ⟨row, -, came⟩ := bind_eq_ok_iff.mp came
  obtain ⟨list, each, came⟩ := bind_eq_ok_iff.mp came
  cases came
  obtain ⟨p, among, same⟩ := List.mem_map.mp (PerOptimization.mem_of_get?_ofList found)
  obtain ⟨rfl, rfl⟩ := Prod.mk.inj same
  obtain ⟨asked, answered⟩ := exists_of_mapM_eq_ok each p among
  unfold predictRow at answered
  split at answered
  next => cases answered
  next => rw [← Except.ok.inj answered]

namespace Session

variable {session : Session}

/-- Optimizing a source is a pass over it. -/
theorem exists_pass {spec : Option (List Char)} {source : List Char} {optimized : Optimized}
    (came : session.optimize spec source = .ok optimized)
    : ∃ pass : Pass, pass.settings = session.templates ∧ pass.facts = session.facts spec
      ∧ pass.report = optimized.analysis.gate ∧ pass.output source = optimized.output := by
  obtain ⟨analysis, analysed, rfl⟩ := map_eq_ok_iff.mp came
  obtain ⟨predictions, predicted, made⟩ := bind_eq_ok_iff.mp analysed
  obtain rfl := Except.ok.inj made
  refine ⟨⟨session.templates, session.facts spec, session.gate.report predictions, ?_⟩,
    rfl, rfl, rfl, rfl⟩
  intro decision member
  obtain ⟨entry, listed, rfl⟩ := List.mem_map.mp member
  exact ⟨_, _, _, Learning.Bank.rationale_eq_explain predicted listed⟩

/-- The text that is left when a source is optimized against several specifications, each time over
what was left before.
-/
def reenter (session : Session) (specs : List (Option (List Char))) (source : List Char)
    : Except Fault (List Char) :=
  specs.foldlM (fun text spec => (session.optimize spec text).map Optimized.output) source

/-- Main statement: a session over what it has left runs as many passes, by induction on them. -/
theorem reenter_eq_run {specs : List (Option (List Char))} {source text : List Char}
    (came : session.reenter specs source = .ok text)
    : ∃ passes : List Pass, passes.length = specs.length ∧ text = Pass.run passes source := by
  induction specs generalizing source with
  | nil => cases came; exact ⟨[], rfl, rfl⟩
  | cons spec rest ih =>
      obtain ⟨left, first, others⟩ := bind_eq_ok_iff.mp came
      obtain ⟨optimized, optimizes, rfl⟩ := map_eq_ok_iff.mp first
      obtain ⟨pass, -, -, -, same⟩ := exists_pass optimizes
      obtain ⟨passes, all, rfl⟩ := ih others
      exact ⟨pass :: passes, congrArg (· + 1) all, by rw [← same]; rfl⟩

end Session

end RangeTuner
