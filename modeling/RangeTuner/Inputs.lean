import RangeTuner.Decimal.Notation
import RangeTuner.Optimization
import RangeTuner.Source.Features
import RangeTuner.Spec.Facts

/-! What decisions are made from: the features of a source under the facts of its domain. A fact
hides a feature of its name, and what is neither known nor extracted reads as zero.
-/

namespace RangeTuner

open RangeTuner.Source RangeTuner.Spec

/-- The features of one source and the facts of its domain. -/
structure Inputs where
  features : Features
  facts : Facts

namespace Inputs

/-- The figure of a name, a fact before a feature. -/
def get (inputs : Inputs) (name : String) : Float :=
  (inputs.facts.get? name).getD (inputs.features.get name)

/-- The names of the figures that decisions are learned from, in the order of a row. -/
def columns : List String := [
  "trigonometric_count",
  "sqrt_operations_count",
  "distance_calculations_count",
  "double_usage_count",
  "range_checks_count",
  "cyclomatic_complexity",
  Features.linesName,
  Facts.area,
  Facts.category,
  Facts.smallOf Axis.latitude.name,
  Facts.smallOf Axis.longitude.name,
  Facts.vehicle]

/-- The place of a name in a row. -/
def columnOf? (name : String) : Option Nat :=
  columns.findIdx? (· = name)

/-- The figures of a list of names. -/
def project (inputs : Inputs) (names : List String) : List Float :=
  names.map inputs.get

/-- The figures that decisions are learned from. -/
def row (inputs : Inputs) : List Float :=
  inputs.project columns

end Inputs

namespace Optimization

open RangeTuner.Decimal

/-- Why an optimization should or should not be applied, in view of the inputs. -/
def reason (optimization : Optimization) (apply : Bool) (inputs : Inputs) : String :=
  let area := fixed 1 (inputs.get Facts.area)
  match optimization, apply with
  | .narrowCoordinates, true =>
      "area of " ++ area ++ " km² lets float precision hold sub-meter resolution"
  | .narrowCoordinates, false => "area of " ++ area ++ " km² needs double precision"
  | .removeRangeGuards, true =>
      let small := inputs.get (Facts.smallOf Axis.latitude.name) ≥ 0.5
        ∧ inputs.get (Facts.smallOf Axis.longitude.name) ≥ 0.5
      if small then "declared coordinate ranges are narrower than the guarded bounds"
      else "range guards look redundant, but coordinate ranges are wide"
  | .removeRangeGuards, false => "coordinate ranges are wide; validation guards stay"
  | .planarDistance, true =>
      "zone of " ++ area ++ " km² is small enough for a flat-earth approximation"
  | .planarDistance, false => "zone of " ++ area ++ " km² needs the great-circle formula"
  | .removeNullGuards, true =>
      "pointer guards add branches to a hot path (cyclomatic complexity "
        ++ fixed 0 (inputs.get "cyclomatic_complexity") ++ ")"
  | .removeNullGuards, false => "pointer guards stay for robustness"
  | .compressStorage, true => "declared maxima fit into a single byte"
  | .compressStorage, false => "declared maxima need wider storage"
  | .zoneConstants, true =>
      fixed 0 (inputs.get "trigonometric_count")
        ++ " trigonometric calls share one fixed zone center"
  | .zoneConstants, false => "zone is too large for a single reference point"

/-- A share as a percentage with one decimal place. -/
def percent (share : Float) : String :=
  fixed 1 (share * 100.0) ++ "%"

/-- The reason for a decision and how confident it was. -/
def explain (optimization : Optimization) (apply : Bool) (inputs : Inputs) (confidence : Float)
    : String :=
  optimization.reason apply inputs ++ " (confidence: " ++ percent confidence ++ ")"

end Optimization

end RangeTuner
