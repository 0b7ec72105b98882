import RangeTuner.Proofs.Exchange.Settings
import RangeTuner.Proofs.Json.Double

/-! Settings with standard values for dropped fields. Each structure of settings fills in what is
left out of it with its own standard values, so fields that are dropped at several levels do not
touch the others. Main statement: from the form of settings without some fields, the settings are
read with standard values in the place of these fields.
-/

namespace RangeTuner

open RangeTuner.Json

-----------------------------------------------------------------------------------------
-- The numbers in settings
-----------------------------------------------------------------------------------------

namespace Learning

/-- The doubles of a regime. -/
def Regime.doubles (regime : Regime) : List Float :=
  regime.area.1 :: regime.area.2 :: regime.applies.toList.map Prod.snd

/-- The bounds of what a regime draws whole numbers from. -/
def Regime.bounds (regime : Regime) : List Int :=
  regime.areaCategory.1 :: regime.areaCategory.2 :: regime.vehicle.1 :: regime.vehicle.2
    :: regime.codeFeatures.flatMap fun jitter => [jitter.low, jitter.high]

namespace TrainingSettings

/-- The doubles in settings for training. -/
def doubles (settings : TrainingSettings) : List Float :=
  settings.holdoutFraction :: settings.boosting.learningRate :: settings.margin.learningRate
    :: settings.margin.regularization :: settings.regimes.flatMap Regime.doubles

/-- The numbers of trees, rounds, epochs, questions and samples in settings for training. -/
def counts (settings : TrainingSettings) : List Nat :=
  settings.forest.trees :: settings.forest.maxDepth :: settings.forest.minSamplesSplit
    :: settings.boosting.rounds :: settings.boosting.maxDepth :: settings.margin.epochs
    :: settings.regimes.map Regime.samples

/-- The bounds of whole numbers in settings for training. -/
def bounds (settings : TrainingSettings) : List Int :=
  settings.regimes.flatMap Regime.bounds

end TrainingSettings

end Learning

/-- The doubles in settings of templates. -/
def Rewrite.Settings.doubles (settings : Rewrite.Settings) : List Float :=
  settings.named.map Prod.snd

/-- The doubles in thresholds. -/
def Spec.Thresholds.doubles (t : Spec.Thresholds) : List Float :=
  [t.kmPerDegree, t.longitudeCorrection, t.smallRangeDegrees, t.areaBuckets.1, t.areaBuckets.2.1,
    t.areaBuckets.2.2, t.speedBuckets.1, t.speedBuckets.2]

/-- The doubles in settings. -/
def EngineSettings.doubles (settings : EngineSettings) : List Float :=
  settings.threshold
    :: (settings.training.doubles ++ settings.templates.doubles ++ settings.spec.doubles)

namespace Learning

/-- A regime is held when its doubles are finite and its whole numbers have sixty-four bits. -/
theorem Regime.held_of_finite {regime : Regime} (finite : ∀ x ∈ regime.doubles, x.isFinite = true)
    (samples : IsWord regime.samples) (bounds : ∀ n ∈ regime.bounds, IsSigned n)
    : regime.Held := by
  obtain ⟨areaLow, areaHigh, applies⟩ : regime.area.1.isFinite = true
      ∧ regime.area.2.isFinite = true ∧ ∀ p ∈ regime.applies.toList, p.2.isFinite = true := by
    simpa only [Regime.doubles, List.forall_mem_cons, List.forall_mem_map] using finite
  simp only [Regime.bounds, List.forall_mem_cons, List.forall_mem_flatMap] at bounds
  obtain ⟨categoryLow, categoryHigh, vehicleLow, vehicleHigh, jitters⟩ := bounds
  exact {
    samples := samples
    codeFeatures := fun jitter listed => ⟨(jitters jitter listed).1, (jitters jitter listed).2.1⟩
    area := ⟨exact_of_isFinite areaLow, exact_of_isFinite areaHigh⟩
    areaCategory := ⟨categoryLow, categoryHigh⟩
    vehicle := ⟨vehicleLow, vehicleHigh⟩
    applies := fun optimization p found =>
      exact_of_isFinite (applies (optimization, p) (PerOptimization.mem_toList_iff.mpr found)) }

/-- Settings for training are held when their doubles are finite and their whole numbers have
sixty-four bits.
-/
theorem TrainingSettings.held_of_finite {settings : TrainingSettings}
    (finite : ∀ x ∈ settings.doubles, x.isFinite = true)
    (counts : ∀ n ∈ settings.counts, IsWord n) (bounds : ∀ n ∈ settings.bounds, IsSigned n)
    : settings.Held := by
  simp only [doubles, List.forall_mem_cons, List.forall_mem_flatMap] at finite
  simp only [TrainingSettings.counts, List.forall_mem_cons, List.forall_mem_map] at counts
  simp only [TrainingSettings.bounds, List.forall_mem_flatMap] at bounds
  obtain ⟨holdout, boostingRate, marginRate, regularization, regimes⟩ := finite
  obtain ⟨trees, treeDepth, minSamples, rounds, stumpDepth, epochs, samples⟩ := counts
  exact {
    holdoutFraction := exact_of_isFinite holdout
    forest := ⟨trees, treeDepth, minSamples⟩
    boosting := ⟨rounds, exact_of_isFinite boostingRate, stumpDepth⟩
    margin := ⟨epochs, exact_of_isFinite marginRate, exact_of_isFinite regularization⟩
    regimes := fun regime listed =>
      Regime.held_of_finite (regimes regime listed) (samples regime listed) (bounds regime listed) }

end Learning

-----------------------------------------------------------------------------------------
-- Standard values in the place of dropped fields
-----------------------------------------------------------------------------------------

namespace Rewrite.Settings

/-- The settings with standard values for dropped fields. -/
def overlay (dropped : Paths) (settings : Settings) : Settings where
  narrowCeiling :=
    dropped.choose "narrow_area_ceiling_km2" standard.narrowCeiling settings.narrowCeiling
  planarCeiling :=
    dropped.choose "planar_area_ceiling_km2" standard.planarCeiling settings.planarCeiling
  constantsCeiling :=
    dropped.choose "constants_area_ceiling_km2" standard.constantsCeiling settings.constantsCeiling
  singleByteMax := dropped.choose "single_byte_max" standard.singleByteMax settings.singleByteMax
  metersPerDegree :=
    dropped.choose "meters_per_degree" standard.metersPerDegree settings.metersPerDegree

theorem overlays {settings : Settings} (finite : ∀ x ∈ settings.doubles, x.isFinite = true)
    : Overlays toJson ofJson? overlay settings := by
  simp only [doubles, named, List.map_cons, List.map_nil, List.forall_mem_cons] at finite
  obtain ⟨narrow, planar, constants, byte, meters, -⟩ := finite
  have narrow := (exact_of_isFinite narrow).overlays
  have planar := (exact_of_isFinite planar).overlays
  have constants := (exact_of_isFinite constants).overlays
  have byte := (exact_of_isFinite byte).overlays
  have meters := (exact_of_isFinite meters).overlays
  constructor
  · exact proper_object_iff.mpr (by
      simp [named, narrow.proper, planar.proper, constants.proper, byte.proper, meters.proper])
  · intro dropped
    rw [toJson, ofJson?, record?_without fields dropped rfl (by decide)]
    simp only [Option.bind_eq_bind, Option.bind_some]
    rw [narrow.withDefault dropped "narrow_area_ceiling_km2" _ rfl,
      planar.withDefault dropped "planar_area_ceiling_km2" _ rfl,
      constants.withDefault dropped "constants_area_ceiling_km2" _ rfl,
      byte.withDefault dropped "single_byte_max" _ rfl,
      meters.withDefault dropped "meters_per_degree" _ rfl]
    rfl

end Rewrite.Settings

namespace Spec.Thresholds

/-- The thresholds with standard values for dropped fields. -/
def overlay (dropped : Paths) (t : Thresholds) : Thresholds where
  kmPerDegree := dropped.choose "km_per_degree" standard.kmPerDegree t.kmPerDegree
  longitudeCorrection :=
    dropped.choose "longitude_correction" standard.longitudeCorrection t.longitudeCorrection
  smallRangeDegrees :=
    dropped.choose "small_range_degrees" standard.smallRangeDegrees t.smallRangeDegrees
  areaBuckets := dropped.choose "area_buckets_km2" standard.areaBuckets t.areaBuckets
  speedBuckets := dropped.choose "speed_buckets_kmh" standard.speedBuckets t.speedBuckets

theorem overlays {t : Thresholds} (finite : ∀ x ∈ t.doubles, x.isFinite = true)
    : Overlays toJson ofJson? overlay t := by
  simp only [doubles, List.forall_mem_cons] at finite
  obtain ⟨km, correction, smallRange, micro, small, medium, urban, highway, -⟩ := finite
  have km := (exact_of_isFinite km).overlays
  have correction := (exact_of_isFinite correction).overlays
  have smallRange := (exact_of_isFinite smallRange).overlays
  have areas := (Keeps.triple (exact_of_isFinite micro).keeps (exact_of_isFinite small).keeps
    (exact_of_isFinite medium).keeps).overlays fun _ => rfl
  have speeds := (Keeps.pair (exact_of_isFinite urban).keeps
    (exact_of_isFinite highway).keeps).overlays fun _ => rfl
  constructor
  · exact proper_object_iff.mpr (by
      simp [km.proper, correction.proper, smallRange.proper, areas.proper, speeds.proper])
  · intro dropped
    rw [toJson, ofJson?, record?_without fields dropped rfl (by decide)]
    simp only [Option.bind_eq_bind, Option.bind_some]
    rw [km.withDefault dropped "km_per_degree" _ rfl,
      correction.withDefault dropped "longitude_correction" _ rfl,
      smallRange.withDefault dropped "small_range_degrees" _ rfl,
      areas.withDefault dropped "area_buckets_km2" _ rfl,
      speeds.withDefault dropped "speed_buckets_kmh" _ rfl]
    rfl

end Spec.Thresholds

namespace EngineSettings

/-- The settings with standard values for dropped fields, in the structures inside of them too. -/
def overlay (dropped : Paths) (settings : EngineSettings) : EngineSettings where
  threshold := dropped.choose "threshold" standard.threshold settings.threshold
  training :=
    dropped.choose "training" standard.training
      (settings.training.overlay (dropped.inside "training"))
  templates :=
    dropped.choose "templates" standard.templates
      (settings.templates.overlay (dropped.inside "templates"))
  spec := dropped.choose "spec" standard.spec (settings.spec.overlay (dropped.inside "spec"))

theorem overlays {settings : EngineSettings} (finite : ∀ x ∈ settings.doubles, x.isFinite = true)
    (counts : ∀ n ∈ settings.training.counts, Learning.IsWord n)
    (bounds : ∀ n ∈ settings.training.bounds, Learning.IsSigned n)
    : Overlays toJson ofJson? overlay settings := by
  simp only [doubles, List.forall_mem_cons, List.forall_mem_append] at finite
  obtain ⟨threshold, ⟨training, templates⟩, spec⟩ := finite
  have threshold := (exact_of_isFinite threshold).overlays
  have training := (Learning.TrainingSettings.held_of_finite training counts bounds).overlays
  have templates := Rewrite.Settings.overlays templates
  have spec := Spec.Thresholds.overlays spec
  constructor
  · exact proper_object_iff.mpr (by
      simp [threshold.proper, training.proper, templates.proper, spec.proper])
  · intro dropped
    rw [toJson, ofJson?, record?_without fields dropped rfl (by decide)]
    simp only [Option.bind_eq_bind, Option.bind_some]
    rw [threshold.withDefault dropped "threshold" _ rfl,
      training.withDefault dropped "training" _ rfl,
      templates.withDefault dropped "templates" _ rfl, spec.withDefault dropped "spec" _ rfl]
    rfl

end EngineSettings

end RangeTuner
