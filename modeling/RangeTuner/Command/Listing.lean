import RangeTuner.Decimal.Digits
import RangeTuner.Session

/-! What commands print for people: tables of figures, decisions, provenance, and training. -/

namespace RangeTuner.Command.Listing

open RangeTuner.Decimal RangeTuner.Learning RangeTuner.Spec

/-- A text widened by blanks at its end. -/
def left (width : Nat) (text : String) : String :=
  .ofList (padEnd width text.toList)

/-- A text widened by blanks in front. -/
def right (width : Nat) (text : String) : String :=
  .ofList (padStart width ' ' text.toList)

/-- Named figures, one a line. -/
def figures (t : Figures) : List String :=
  t.toList.map fun (name, figure) => "  " ++ left 32 name ++ " " ++ right 14 (fixed 4 figure)

/-- The origin of facts, in words. -/
def originWord : Origin → String
  | .parsed => "Parsed"
  | .conservativeDefault => "ConservativeDefault"

/-- The part of the world, in words. -/
def regionWord : Region → String
  | .southAmerica => "SouthAmerica"
  | .europe => "Europe"
  | .unknown => "Unknown"

/-- Facts: where they come from, and what they are. -/
def facts (facts : Facts) : List String :=
  ("Facts origin " ++ originWord facts.origin ++ ", region " ++ regionWord facts.region)
    :: figures facts.values

/-- A share as a percentage in a column. -/
def percentage (width : Nat) (share : Float) : String :=
  right width (fixed 1 (share * 100.0)) ++ "%"

/-- An optimization with a confidence and a word on it. -/
def verdictLine (optimization : Optimization) (confidence : Float) (word : String) : String :=
  "  " ++ left 28 optimization.id ++ " " ++ percentage 6 confidence ++ "  " ++ word

/-- A decision of the gate and its rationale. -/
def decision (d : GateDecision) : List String :=
  [verdictLine d.optimization d.confidence d.verdict.label, "      " ++ d.rationale]

/-- The last line of an analysis. -/
def summary (summary : Summary) (threshold : Float) : String :=
  "  → " ++ toString summary.evaluated ++ " evaluated, " ++ toString summary.recommended
    ++ " recommended, " ++ toString (summary.verdicts .approved) ++ " approved (threshold "
    ++ fixed 2 threshold ++ "), mean confidence " ++ Optimization.percent summary.meanConfidence

/-- An analysis: its source and facts, its decisions, and their summary. -/
def analysis (a : Analysis) : List String :=
  let facts := if a.facts.isConservative then "conservative defaults" else "parsed"
  ["  source " ++ a.sourceDigest ++ "  facts: " ++ facts]
    ++ a.gate.decisions.flatMap decision
    ++ [summary a.summary a.gate.threshold]

/-- Provenance, one entry a line. -/
def provenance (entries : List ProvenanceEntry) : List String :=
  entries.map fun entry =>
    verdictLine entry.optimization entry.confidence entry.fate.describe

/-- How a learner did on the rows held out. -/
def holdout (optimization : Optimization) (accuracy : Option Float) : String :=
  "  " ++ left 28 optimization.id ++ " "
    ++ match accuracy with
      | some share => "holdout accuracy " ++ percentage 5 share
      | none => "no holdout rows"

/-- A training and how its learners did. -/
def training (t : TrainingSummary) : List String :=
  ("Trained " ++ toString t.samples ++ " samples, seed " ++ toString t.seed.toNat)
    :: t.holdoutAccuracy.toList.map fun (optimization, accuracy) => holdout optimization accuracy

end RangeTuner.Command.Listing
