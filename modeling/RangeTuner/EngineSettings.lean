import RangeTuner.Gate
import RangeTuner.Rewrite.Template
import RangeTuner.Spec.Reading

/-! The settings of the engine as a whole. They are checked before anything is done with them,
and the first problem found is the one that is told.
-/

namespace RangeTuner

open RangeTuner.Decimal RangeTuner.Learning

namespace Rewrite.Settings

/-- The settings with the names that problems call them by, in the order they are checked. -/
def named (settings : Settings) : List (String × Float) := [
  ("narrow_area_ceiling_km2", settings.narrowCeiling),
  ("planar_area_ceiling_km2", settings.planarCeiling),
  ("constants_area_ceiling_km2", settings.constantsCeiling),
  ("single_byte_max", settings.singleByteMax),
  ("meters_per_degree", settings.metersPerDegree)]

/-- Why the settings of the templates are refused: one is negative or not finite. -/
def problem? (settings : Settings) : Option String :=
  (settings.named.find? fun entry => !entry.2.isFinite || entry.2 < 0.0).map
    fun (name, limit) =>
      "templates." ++ name ++ " must be a non-negative number, got " ++ plain limit

end Rewrite.Settings

/-- What an engine is configured with. -/
structure EngineSettings where
  /-- The confidence that a prediction must exceed to be acted on. -/
  threshold : Float
  training : TrainingSettings
  templates : Rewrite.Settings
  spec : Spec.Thresholds

namespace EngineSettings

/-- The settings used where nothing else is configured. -/
def standard : EngineSettings where
  threshold := Gate.standardThreshold
  training := .standard
  templates := .standard
  spec := .standard

/-- Why a threshold is refused. -/
def thresholdProblem? (threshold : Float) : Option String :=
  if isProbability threshold then none
  else some ("threshold must be in [0, 1], got " ++ plain threshold)

/-- Why settings are refused. -/
def problem? (settings : EngineSettings) : Option String :=
  thresholdProblem? settings.threshold
    |>.or settings.training.problem?
    |>.or settings.spec.problem?
    |>.or settings.templates.problem?

/-- Settings that have no problem. -/
def checked (settings : EngineSettings) : Except Fault EngineSettings := do
  refuse settings.problem?
  return settings

end EngineSettings

end RangeTuner
