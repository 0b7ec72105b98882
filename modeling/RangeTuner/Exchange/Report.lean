import RangeTuner.Exchange.Domain
import RangeTuner.Session

/-! The JSON forms of decisions and of what came of them: reports, edits and provenance. Decisions
of the gate and entries of provenance are also read.
-/

namespace RangeTuner

open RangeTuner.Json

/-- All fields in order. -/
def Prediction.toJson (p : Prediction) : Json :=
  .object [
    ("optimization", p.optimization.toJson),
    ("apply", .bool p.apply),
    ("confidence", .ofFloat p.confidence),
    ("rationale", .string p.rationale)]

namespace GateDecision

/-- The names of the fields. -/
def fields : List String :=
  ["optimization", "outcome", "confidence", "rationale"]

/-- All fields in order. -/
def toJson (decision : GateDecision) : Json :=
  .object [
    ("optimization", decision.optimization.toJson),
    ("outcome", decision.verdict.toJson),
    ("confidence", .ofFloat decision.confidence),
    ("rationale", .string decision.rationale)]

/-- The decision of a structure. -/
def ofJson? (j : Json) : Option GateDecision := do
  let r ← record? .strict fields j
  return {
    optimization := ← r.require "optimization" Optimization.ofJson?
    verdict := ← r.require "outcome" Verdict.ofJson?
    confidence := ← r.require "confidence" float?
    rationale := ← r.require "rationale" string? }

end GateDecision

/-- All fields in order. -/
def GateReport.toJson (report : GateReport) : Json :=
  .object [
    ("threshold", .ofFloat report.threshold),
    ("decisions", .ofList GateDecision.toJson report.decisions)]

/-- All fields in order, the verdicts' counts last. -/
def Summary.toJson (summary : Summary) : Json :=
  .object ([
      ("total_evaluated", .ofNat summary.evaluated),
      ("recommended", .ofNat summary.recommended),
      ("rejected", .ofNat summary.advisedAgainst),
      ("average_confidence", .ofFloat summary.meanConfidence),
      ("recommendation_rate", .ofFloat summary.recommendationRate),
      ("high_confidence_count", .ofNat summary.highlyConfident)]
    ++ Verdict.all.map fun verdict => (verdict.name, .ofNat (summary.verdicts verdict)))

/-- All fields in order. -/
def Rewrite.Edit.toJson (edit : Edit) : Json :=
  .object [
    ("optimization", edit.optimization.toJson),
    ("outcome", .string edit.outcome.name)]

namespace Fate

/-- The fate of an approved optimization, by its outcome. -/
def ofOutcome : Rewrite.EditOutcome → Fate
  | .applied => .applied
  | .preconditionFailed => .preconditionFailed
  | .noMatch => .noMatch

/-- The name of the tag of a fate that the gate decided. -/
def gateTag : String := "gate"

/-- The members of a fate: its name, and the verdict of the gate where that decided it. -/
def members : Fate → List (String × Json)
  | .applied => [("status", .string Rewrite.EditOutcome.applied.name)]
  | .preconditionFailed => [("status", .string Rewrite.EditOutcome.preconditionFailed.name)]
  | .noMatch => [("status", .string Rewrite.EditOutcome.noMatch.name)]
  | .gate verdict => [("status", .string gateTag), ("outcome", verdict.toJson)]

/-- A fate is tagged with its name. -/
def toJson (fate : Fate) : Json :=
  .object fate.members

/-- The fate of a name and what stands beside it, which is the verdict for the gate's fate. -/
def ofParts? (verdict? : Json → Option Verdict) (name : String) (content : Option Json)
    : Option Fate :=
  if name = gateTag then do return .gate (← verdict? (← content))
  else
    match content.getD .null with
    | .null =>
        [.applied, .preconditionFailed, .noMatch].findSome? fun outcome =>
          if outcome.name = name then some (ofOutcome outcome) else none
    | _ => none

/-- The fate of a tagged structure; an object is kept whole, an array is not. -/
def ofJson? : Json → Option Fate
  | .array [tag, content] => do ofParts? Verdict.ofJson? (← choice? some tag) (some content)
  | .object members => do
      let r ← record? .strict ["status", "outcome"] (.object members)
      ofParts? Verdict.ofKept? (← r.require "status" (choice? some)) (r.field? "outcome")
  | _ => none

end Fate

namespace ProvenanceEntry

/-- The names of the fields. -/
def fields : List String :=
  ["optimization", "status", "confidence", "explanation"]

/-- All fields in order. -/
def toJson (entry : ProvenanceEntry) : Json :=
  .object [
    ("optimization", entry.optimization.toJson),
    ("status", entry.fate.toJson),
    ("confidence", .ofFloat entry.confidence),
    ("explanation", .string entry.explanation)]

/-- The entry of a structure. -/
def ofJson? (j : Json) : Option ProvenanceEntry := do
  let r ← record? .strict fields j
  return {
    optimization := ← r.require "optimization" Optimization.ofJson?
    fate := ← r.require "status" Fate.ofJson?
    confidence := ← r.require "confidence" float?
    explanation := ← r.require "explanation" string? }

end ProvenanceEntry

namespace Analysis

/-- What the analysis found, field by field. -/
def members (analysis : Analysis) : List (String × Json) := [
  ("source_digest", .string analysis.sourceDigest),
  ("spec_digest", .ofOption .string analysis.specDigest),
  ("features", analysis.features.toJson),
  ("facts", analysis.facts.toJson),
  ("predictions", analysis.predictions.toJson Prediction.toJson),
  ("gate", analysis.gate.toJson),
  ("summary", analysis.summary.toJson)]

/-- The report of an analysis that was made at some time. -/
def report (analysis : Analysis) (generatedAt : String) : Json :=
  .object (("generated_at", .string generatedAt) :: analysis.members)

end Analysis

end RangeTuner
