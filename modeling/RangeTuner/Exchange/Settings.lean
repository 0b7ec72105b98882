import RangeTuner.EngineSettings
import RangeTuner.Exchange.Catalogue
import RangeTuner.Json.Reader

/-! The JSON forms of settings. Fields that are left out keep their standard values, except in
regimes, which are given in full. For each structure, `fields` are its names in order, `toJson`
writes them all, and `ofJson?` reads them back.
-/

namespace RangeTuner

open RangeTuner.Json

namespace Spec.Thresholds

/-- The names of the fields. -/
def fields : List String :=
  ["km_per_degree", "longitude_correction", "small_range_degrees", "area_buckets_km2",
    "speed_buckets_kmh"]

/-- All fields in order. -/
def toJson (t : Thresholds) : Json :=
  let (micro, small, medium) := t.areaBuckets
  .object [
    ("km_per_degree", .ofFloat t.kmPerDegree),
    ("longitude_correction", .ofFloat t.longitudeCorrection),
    ("small_range_degrees", .ofFloat t.smallRangeDegrees),
    ("area_buckets_km2", .ofList .ofFloat [micro, small, medium]),
    ("speed_buckets_kmh", .ofList .ofFloat [t.speedBuckets.1, t.speedBuckets.2])]

/-- The thresholds of a structure, with standard values for what it leaves out. -/
def ofJson? (j : Json) : Option Thresholds := do
  let r ← record? .lenient fields j
  return {
    kmPerDegree := ← r.withDefault "km_per_degree" standard.kmPerDegree float?
    longitudeCorrection := ←
      r.withDefault "longitude_correction" standard.longitudeCorrection float?
    smallRangeDegrees := ←
      r.withDefault "small_range_degrees" standard.smallRangeDegrees float?
    areaBuckets := ← r.withDefault "area_buckets_km2" standard.areaBuckets (triple? float?)
    speedBuckets := ← r.withDefault "speed_buckets_kmh" standard.speedBuckets (pair? float?) }

end Spec.Thresholds

namespace Rewrite.Settings

/-- The names of the fields. -/
def fields : List String :=
  ["narrow_area_ceiling_km2", "planar_area_ceiling_km2", "constants_area_ceiling_km2",
    "single_byte_max", "meters_per_degree"]

/-- All fields in order. -/
def toJson (settings : Settings) : Json :=
  .object (settings.named.map fun (name, limit) => (name, .ofFloat limit))

/-- The settings of a structure, with standard values for what it leaves out. -/
def ofJson? (j : Json) : Option Settings := do
  let r ← record? .lenient fields j
  return {
    narrowCeiling := ← r.withDefault "narrow_area_ceiling_km2" standard.narrowCeiling float?
    planarCeiling := ← r.withDefault "planar_area_ceiling_km2" standard.planarCeiling float?
    constantsCeiling := ←
      r.withDefault "constants_area_ceiling_km2" standard.constantsCeiling float?
    singleByteMax := ← r.withDefault "single_byte_max" standard.singleByteMax float?
    metersPerDegree := ← r.withDefault "meters_per_degree" standard.metersPerDegree float? }

end Rewrite.Settings

namespace Learning

namespace ForestSettings

/-- The names of the fields. -/
def fields : List String :=
  ["trees", "max_depth", "min_samples_split"]

/-- All fields in order. -/
def toJson (settings : ForestSettings) : Json :=
  .object [
    ("trees", .ofNat settings.trees),
    ("max_depth", .ofNat settings.maxDepth),
    ("min_samples_split", .ofNat settings.minSamplesSplit)]

/-- The settings of a structure, with standard values for what it leaves out. -/
def ofJson? (j : Json) : Option ForestSettings := do
  let r ← record? .lenient fields j
  return {
    trees := ← r.withDefault "trees" standard.trees nat?
    maxDepth := ← r.withDefault "max_depth" standard.maxDepth nat?
    minSamplesSplit := ← r.withDefault "min_samples_split" standard.minSamplesSplit nat? }

end ForestSettings

namespace BoostingSettings

/-- The names of the fields. -/
def fields : List String :=
  ["rounds", "learning_rate", "max_depth"]

/-- All fields in order. -/
def toJson (settings : BoostingSettings) : Json :=
  .object [
    ("rounds", .ofNat settings.rounds),
    ("learning_rate", .ofFloat settings.learningRate),
    ("max_depth", .ofNat settings.maxDepth)]

/-- The settings of a structure, with standard values for what it leaves out. -/
def ofJson? (j : Json) : Option BoostingSettings := do
  let r ← record? .lenient fields j
  return {
    rounds := ← r.withDefault "rounds" standard.rounds nat?
    learningRate := ← r.withDefault "learning_rate" standard.learningRate float?
    maxDepth := ← r.withDefault "max_depth" standard.maxDepth nat? }

end BoostingSettings

namespace MarginSettings

/-- The names of the fields. -/
def fields : List String :=
  ["epochs", "learning_rate", "regularization"]

/-- All fields in order. -/
def toJson (settings : MarginSettings) : Json :=
  .object [
    ("epochs", .ofNat settings.epochs),
    ("learning_rate", .ofFloat settings.learningRate),
    ("regularization", .ofFloat settings.regularization)]

/-- The settings of a structure, with standard values for what it leaves out. -/
def ofJson? (j : Json) : Option MarginSettings := do
  let r ← record? .lenient fields j
  return {
    epochs := ← r.withDefault "epochs" standard.epochs nat?
    learningRate := ← r.withDefault "learning_rate" standard.learningRate float?
    regularization := ← r.withDefault "regularization" standard.regularization float? }

end MarginSettings

namespace Jitter

/-- The names of the fields. -/
def fields : List String :=
  ["feature", "lo", "hi"]

/-- All fields in order. -/
def toJson (jitter : Jitter) : Json :=
  .object [
    ("feature", .string jitter.feature),
    ("lo", .ofInt jitter.low),
    ("hi", .ofInt jitter.high)]

/-- The jitter of a structure. -/
def ofJson? (j : Json) : Option Jitter := do
  let r ← record? .strict fields j
  return {
    feature := ← r.require "feature" string?
    low := ← r.require "lo" signed?
    high := ← r.require "hi" signed? }

end Jitter

namespace Regime

/-- The names of the fields. -/
def fields : List String :=
  ["name", "samples", "code_features", "area_km2", "area_category", "small_range",
    "vehicle_type", "label_probability"]

/-- All fields in order. -/
def toJson (regime : Regime) : Json :=
  .object [
    ("name", .string regime.name),
    ("samples", .ofNat regime.samples),
    ("code_features", .ofList Jitter.toJson regime.codeFeatures),
    ("area_km2", .ofList .ofFloat [regime.area.1, regime.area.2]),
    ("area_category", .ofList .ofInt [regime.areaCategory.1, regime.areaCategory.2]),
    ("small_range", .bool regime.smallRange),
    ("vehicle_type", .ofList .ofInt [regime.vehicle.1, regime.vehicle.2]),
    ("label_probability", regime.applies.toJson .ofFloat)]

/-- The regime of a structure. -/
def ofJson? (j : Json) : Option Regime := do
  let r ← record? .strict fields j
  return {
    name := ← r.require "name" string?
    samples := ← r.require "samples" nat?
    codeFeatures := ← r.require "code_features" (list? Jitter.ofJson?)
    area := ← r.require "area_km2" (pair? float?)
    areaCategory := ← r.require "area_category" (pair? signed?)
    smallRange := ← r.require "small_range" bool?
    vehicle := ← r.require "vehicle_type" (pair? signed?)
    applies := ← r.require "label_probability" (PerOptimization.ofJson? float?) }

end Regime

namespace TrainingSettings

/-- The names of the fields. -/
def fields : List String :=
  ["seed", "holdout_fraction", "forest", "boosting", "margin", "regimes"]

/-- All fields in order. -/
def toJson (settings : TrainingSettings) : Json :=
  .object [
    ("seed", .ofWord settings.seed),
    ("holdout_fraction", .ofFloat settings.holdoutFraction),
    ("forest", settings.forest.toJson),
    ("boosting", settings.boosting.toJson),
    ("margin", settings.margin.toJson),
    ("regimes", .ofList Regime.toJson settings.regimes)]

/-- The settings of a structure, with standard values for what it leaves out. -/
def ofJson? (j : Json) : Option TrainingSettings := do
  let r ← record? .lenient fields j
  return {
    seed := ← r.withDefault "seed" standard.seed word?
    holdoutFraction := ← r.withDefault "holdout_fraction" standard.holdoutFraction float?
    forest := ← r.withDefault "forest" standard.forest ForestSettings.ofJson?
    boosting := ← r.withDefault "boosting" standard.boosting BoostingSettings.ofJson?
    margin := ← r.withDefault "margin" standard.margin MarginSettings.ofJson?
    regimes := ← r.withDefault "regimes" standard.regimes (list? Regime.ofJson?) }

end TrainingSettings

end Learning

namespace EngineSettings

/-- The names of the fields. -/
def fields : List String :=
  ["threshold", "training", "templates", "spec"]

/-- All fields in order. -/
def toJson (settings : EngineSettings) : Json :=
  .object [
    ("threshold", .ofFloat settings.threshold),
    ("training", settings.training.toJson),
    ("templates", settings.templates.toJson),
    ("spec", settings.spec.toJson)]

/-- The settings of a structure, with standard values for what it leaves out. -/
def ofJson? (j : Json) : Option EngineSettings := do
  let r ← record? .lenient fields j
  return {
    threshold := ← r.withDefault "threshold" standard.threshold float?
    training := ← r.withDefault "training" standard.training Learning.TrainingSettings.ofJson?
    templates := ← r.withDefault "templates" standard.templates Rewrite.Settings.ofJson?
    spec := ← r.withDefault "spec" standard.spec Spec.Thresholds.ofJson? }

/-- The settings that a text writes, when they have no problem. -/
def ofText (text : List Char) : Except Fault EngineSettings :=
  match (read? text).bind ofJson? with
  | some settings => settings.checked
  | none => .error .data

end EngineSettings

end RangeTuner
