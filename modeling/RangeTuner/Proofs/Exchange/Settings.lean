import RangeTuner.Exchange.Settings
import RangeTuner.Proofs.Json.Dropping
import RangeTuner.Proofs.Learning.Training

/-! The JSON forms of settings for training are read back, in whole and in part. Values are held by
their forms when their whole numbers have sixty-four bits and their doubles are exact, and each
structure fills in what is left out of its form with its own standard values.
-/

namespace RangeTuner

open RangeTuner.Json

namespace PerOptimization

variable {α : Type} {encode : α → Json} {decode : Json → Option α}

/-- Values per optimization are kept when each of them is. -/
theorem keeps {t : PerOptimization α}
    (keeps : ∀ optimization a, t.get? optimization = some a → Keeps encode decode a)
    : Keeps (toJson encode) (ofJson? decode) t where
  proper := by
    apply proper_object_iff.mpr
    intro member listed
    obtain ⟨⟨optimization, a⟩, entry, rfl⟩ := List.mem_map.mp listed
    exact (keeps optimization a (mem_toList_iff.mp entry)).proper
  read := by
    have entries : ∀ listed : List (Optimization × α),
        (∀ entry ∈ listed, Keeps encode decode entry.2)
        → (listed.map fun entry => (entry.1.id, encode entry.2)).mapM
            (fun member => do return (← Optimization.ofId? member.1, ← decode member.2))
          = some listed := by
      intro listed keeps
      induction listed with
      | nil => rfl
      | cons entry rest ih =>
          obtain ⟨first, others⟩ := List.forall_mem_cons.mp keeps
          rw [List.map_cons, List.mapM_cons, ih others, Optimization.ofId?_id, first.read]
          rfl
    have all := entries t.toList fun entry listed =>
      keeps entry.1 entry.2 (mem_toList_iff.mp listed)
    simp only [ofJson?, toJson, members?, Option.bind_eq_bind, Option.bind_some] at all ⊢
    rw [all, Option.bind_some, ofList_toList]
    rfl

end PerOptimization

namespace Learning

/-- A whole number that sixty-four bits hold. -/
def IsWord (n : Nat) : Prop :=
  n < 18446744073709551616

/-- A whole number that sixty-three bits and a sign hold. -/
def IsSigned (n : Int) : Prop :=
  -9223372036854775808 ≤ n ∧ n < 9223372036854775808

instance (n : Nat) : Decidable (IsWord n) :=
  inferInstanceAs (Decidable (_ < _))

instance (n : Int) : Decidable (IsSigned n) :=
  inferInstanceAs (Decidable (_ ∧ _))

/-- The numbers of trees, questions and samples are words. -/
structure ForestSettings.Held (settings : ForestSettings) : Prop where
  trees : IsWord settings.trees
  maxDepth : IsWord settings.maxDepth
  minSamplesSplit : IsWord settings.minSamplesSplit

/-- The settings with standard values for dropped fields. -/
def ForestSettings.overlay (dropped : Paths) (settings : ForestSettings) : ForestSettings where
  trees := dropped.choose "trees" standard.trees settings.trees
  maxDepth := dropped.choose "max_depth" standard.maxDepth settings.maxDepth
  minSamplesSplit :=
    dropped.choose "min_samples_split" standard.minSamplesSplit settings.minSamplesSplit

theorem ForestSettings.Held.overlays {settings : ForestSettings} (held : settings.Held)
    : Overlays toJson ofJson? overlay settings := by
  have trees := (keeps_ofNat held.trees).overlays fun _ => rfl
  have maxDepth := (keeps_ofNat held.maxDepth).overlays fun _ => rfl
  have minSamples := (keeps_ofNat held.minSamplesSplit).overlays fun _ => rfl
  constructor
  · exact proper_object_iff.mpr (by simp [trees.proper, maxDepth.proper, minSamples.proper])
  · intro dropped
    rw [toJson, ofJson?, record?_without fields dropped rfl (by decide)]
    simp only [Option.bind_eq_bind, Option.bind_some]
    rw [trees.withDefault dropped "trees" _ rfl, maxDepth.withDefault dropped "max_depth" _ rfl,
      minSamples.withDefault dropped "min_samples_split" _ rfl]
    rfl

theorem ForestSettings.Held.keeps {settings : ForestSettings} (held : settings.Held)
    : Keeps toJson ofJson? settings :=
  held.overlays.keeps rfl

/-- The numbers of rounds and questions are words, and the rate is exact. -/
structure BoostingSettings.Held (settings : BoostingSettings) : Prop where
  rounds : IsWord settings.rounds
  learningRate : Exact settings.learningRate
  maxDepth : IsWord settings.maxDepth

/-- The settings with standard values for dropped fields. -/
def BoostingSettings.overlay (dropped : Paths) (settings : BoostingSettings)
    : BoostingSettings where
  rounds := dropped.choose "rounds" standard.rounds settings.rounds
  learningRate := dropped.choose "learning_rate" standard.learningRate settings.learningRate
  maxDepth := dropped.choose "max_depth" standard.maxDepth settings.maxDepth

theorem BoostingSettings.Held.overlays {settings : BoostingSettings} (held : settings.Held)
    : Overlays toJson ofJson? overlay settings := by
  have rounds := (keeps_ofNat held.rounds).overlays fun _ => rfl
  have rate := held.learningRate.overlays
  have maxDepth := (keeps_ofNat held.maxDepth).overlays fun _ => rfl
  constructor
  · exact proper_object_iff.mpr (by simp [rounds.proper, rate.proper, maxDepth.proper])
  · intro dropped
    rw [toJson, ofJson?, record?_without fields dropped rfl (by decide)]
    simp only [Option.bind_eq_bind, Option.bind_some]
    rw [rounds.withDefault dropped "rounds" _ rfl, rate.withDefault dropped "learning_rate" _ rfl,
      maxDepth.withDefault dropped "max_depth" _ rfl]
    rfl

theorem BoostingSettings.Held.keeps {settings : BoostingSettings} (held : settings.Held)
    : Keeps toJson ofJson? settings :=
  held.overlays.keeps rfl

/-- The number of epochs is a word, and rate and regularization are exact. -/
structure MarginSettings.Held (settings : MarginSettings) : Prop where
  epochs : IsWord settings.epochs
  learningRate : Exact settings.learningRate
  regularization : Exact settings.regularization

/-- The settings with standard values for dropped fields. -/
def MarginSettings.overlay (dropped : Paths) (settings : MarginSettings) : MarginSettings where
  epochs := dropped.choose "epochs" standard.epochs settings.epochs
  learningRate := dropped.choose "learning_rate" standard.learningRate settings.learningRate
  regularization :=
    dropped.choose "regularization" standard.regularization settings.regularization

theorem MarginSettings.Held.overlays {settings : MarginSettings} (held : settings.Held)
    : Overlays toJson ofJson? overlay settings := by
  have epochs := (keeps_ofNat held.epochs).overlays fun _ => rfl
  have rate := held.learningRate.overlays
  have regularization := held.regularization.overlays
  constructor
  · exact proper_object_iff.mpr (by simp [epochs.proper, rate.proper, regularization.proper])
  · intro dropped
    rw [toJson, ofJson?, record?_without fields dropped rfl (by decide)]
    simp only [Option.bind_eq_bind, Option.bind_some]
    rw [epochs.withDefault dropped "epochs" _ rfl, rate.withDefault dropped "learning_rate" _ rfl,
      regularization.withDefault dropped "regularization" _ rfl]
    rfl

theorem MarginSettings.Held.keeps {settings : MarginSettings} (held : settings.Held)
    : Keeps toJson ofJson? settings :=
  held.overlays.keeps rfl

/-- Both bounds are held. -/
structure Jitter.Held (jitter : Jitter) : Prop where
  low : IsSigned jitter.low
  high : IsSigned jitter.high

instance (jitter : Jitter) : Decidable jitter.Held :=
  decidable_of_iff (IsSigned jitter.low ∧ IsSigned jitter.high)
    ⟨fun both => ⟨both.1, both.2⟩, fun held => ⟨held.low, held.high⟩⟩

theorem Jitter.Held.keeps {jitter : Jitter} (held : jitter.Held)
    : Keeps toJson ofJson? jitter := by
  have feature := keeps_string jitter.feature
  have low := keeps_ofInt held.low
  have high := keeps_ofInt held.high
  constructor
  · exact proper_object_iff.mpr (by simp [feature.proper, low.proper, high.proper])
  · rw [toJson, ofJson?, record?_object]
    · simp only [Option.bind_eq_bind, Option.bind_some]
      rw [feature.require "feature" rfl, low.require "lo" rfl,
        high.require "hi" rfl]
      rfl
    · rfl
    · decide

/-- All whole numbers are held, and all doubles are exact. -/
structure Regime.Held (regime : Regime) : Prop where
  samples : IsWord regime.samples
  codeFeatures : ∀ jitter ∈ regime.codeFeatures, jitter.Held
  area : Exact regime.area.1 ∧ Exact regime.area.2
  areaCategory : IsSigned regime.areaCategory.1 ∧ IsSigned regime.areaCategory.2
  vehicle : IsSigned regime.vehicle.1 ∧ IsSigned regime.vehicle.2
  applies : ∀ optimization p, regime.applies.get? optimization = some p → Exact p

theorem Regime.Held.keeps {regime : Regime} (held : regime.Held)
    : Keeps toJson ofJson? regime := by
  have name := keeps_string regime.name
  have samples := keeps_ofNat held.samples
  have codeFeatures := Keeps.list fun jitter listed => (held.codeFeatures jitter listed).keeps
  have area := Keeps.pair held.area.1.keeps held.area.2.keeps
  have areaCategory :=
    Keeps.pair (keeps_ofInt held.areaCategory.1) (keeps_ofInt held.areaCategory.2)
  have smallRange := keeps_bool regime.smallRange
  have vehicle := Keeps.pair (keeps_ofInt held.vehicle.1) (keeps_ofInt held.vehicle.2)
  have applies := PerOptimization.keeps fun optimization p found =>
    (held.applies optimization p found).keeps
  constructor
  · exact proper_object_iff.mpr (by
      simp [name.proper, samples.proper, codeFeatures.proper, area.proper, areaCategory.proper,
        smallRange.proper, vehicle.proper, applies.proper])
  · rw [toJson, ofJson?, record?_object]
    · simp only [Option.bind_eq_bind, Option.bind_some]
      rw [name.require "name" rfl, samples.require "samples" rfl,
        codeFeatures.require "code_features" rfl, area.require "area_km2" rfl,
        areaCategory.require "area_category" rfl, smallRange.require "small_range" rfl,
        vehicle.require "vehicle_type" rfl, applies.require "label_probability" rfl]
      rfl
    · rfl
    · decide

/-- All settings of learners and all regimes are held, and the share held out is exact. -/
structure TrainingSettings.Held (settings : TrainingSettings) : Prop where
  holdoutFraction : Exact settings.holdoutFraction
  forest : settings.forest.Held
  boosting : settings.boosting.Held
  margin : settings.margin.Held
  regimes : ∀ regime ∈ settings.regimes, regime.Held

/-- The settings with standard values for dropped fields, in the structures inside of them too. -/
def TrainingSettings.overlay (dropped : Paths) (settings : TrainingSettings)
    : TrainingSettings where
  seed := dropped.choose "seed" standard.seed settings.seed
  holdoutFraction :=
    dropped.choose "holdout_fraction" standard.holdoutFraction settings.holdoutFraction
  forest :=
    dropped.choose "forest" standard.forest (settings.forest.overlay (dropped.inside "forest"))
  boosting :=
    dropped.choose "boosting" standard.boosting
      (settings.boosting.overlay (dropped.inside "boosting"))
  margin :=
    dropped.choose "margin" standard.margin (settings.margin.overlay (dropped.inside "margin"))
  regimes := dropped.choose "regimes" standard.regimes settings.regimes

theorem TrainingSettings.Held.overlays {settings : TrainingSettings} (held : settings.Held)
    : Overlays toJson ofJson? overlay settings := by
  have seed := (keeps_ofWord settings.seed).overlays fun _ => rfl
  have holdout := held.holdoutFraction.overlays
  have forest := held.forest.overlays
  have boosting := held.boosting.overlays
  have margin := held.margin.overlays
  -- regimes are given in full, so their list is dropped as a whole or not at all
  have regimes :=
    (Keeps.list fun regime listed => (held.regimes regime listed).keeps).overlays fun _ => rfl
  constructor
  · exact proper_object_iff.mpr (by
      simp [seed.proper, holdout.proper, forest.proper, boosting.proper, margin.proper,
        regimes.proper])
  · intro dropped
    rw [toJson, ofJson?, record?_without fields dropped rfl (by decide)]
    simp only [Option.bind_eq_bind, Option.bind_some]
    rw [seed.withDefault dropped "seed" _ rfl,
      holdout.withDefault dropped "holdout_fraction" _ rfl,
      forest.withDefault dropped "forest" _ rfl, boosting.withDefault dropped "boosting" _ rfl,
      margin.withDefault dropped "margin" _ rfl, regimes.withDefault dropped "regimes" _ rfl]
    rfl

/-- Settings for training are read back from their form. -/
theorem TrainingSettings.Held.keeps {settings : TrainingSettings} (held : settings.Held)
    : Keeps toJson ofJson? settings :=
  held.overlays.keeps rfl

/-- Probabilities from a list of exact doubles are exact. -/
theorem Regime.exact_of_probabilities {values : List Float} (exact : ∀ p ∈ values, Exact p)
    (optimization : Optimization) (p : Float)
    (found : (probabilities values).get? optimization = some p)
    : Exact p :=
  exact p (List.of_mem_zip (PerOptimization.mem_of_get?_ofList found)).2

/-- The standard settings are held. -/
theorem TrainingSettings.standard_held
    : standard.Held where
  holdoutFraction := by decide +kernel
  forest := ⟨by decide, by decide, by decide⟩
  boosting := ⟨by decide, by decide +kernel, by decide⟩
  margin := ⟨by decide, by decide +kernel, by decide +kernel⟩
  regimes := by
    intro regime listed
    simp only [standard, List.mem_cons, List.not_mem_nil, or_false] at listed
    rcases listed with rfl | rfl | rfl
    all_goals
      exact ⟨by decide, by decide, by decide +kernel, by decide, by decide,
        Regime.exact_of_probabilities (by decide +kernel)⟩

end Learning

end RangeTuner
