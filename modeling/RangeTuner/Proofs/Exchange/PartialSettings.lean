import RangeTuner.Proofs.Exchange.Overlay

/-! Settings from texts that leave fields out. Only the settings that come out are checked, and each
check looks at one field alone, so settings without a problem keep none when fields are dropped.
Main statement: settings without a problem are read back from their text, and from the text of
settings without some fields, these are read with their standard values and all others are kept.
-/

namespace RangeTuner

open RangeTuner.Json

-----------------------------------------------------------------------------------------
-- Checks of single fields
-----------------------------------------------------------------------------------------

/-- What holds of the standard value and of the own one holds of the one that is chosen. -/
theorem Json.Paths.choose_of {α : Type} {p : α → Prop} (dropped : Paths) (name : String)
    {standard own : α} (first : p standard) (second : p own)
    : p (dropped.choose name standard own) := by
  unfold choose
  split
  · exact first
  · exact second

namespace Learning.TrainingSettings

variable {settings : TrainingSettings}

/-- Settings for training have no problem when each of six fields has none. -/
theorem problem?_eq_none_iff
    : settings.problem? = none
      ↔ (0.0 ≤ settings.holdoutFraction && settings.holdoutFraction < 1.0) = true
        ∧ (settings.regimes.all fun regime => regime.samples = 0) = false
        ∧ settings.forest.trees ≠ 0 ∧ settings.boosting.rounds ≠ 0 ∧ settings.margin.epochs ≠ 0
        ∧ settings.regimes.findSome? Regime.problem? = none := by
  unfold problem?
  cases (0.0 ≤ settings.holdoutFraction && settings.holdoutFraction < 1.0 : Bool) with
  | false => simp
  | true =>
      cases (settings.regimes.all fun regime => regime.samples = 0 : Bool) with
      | true => simp
      | false =>
          simp only [Bool.not_true, Bool.false_eq_true, if_false, true_and]
          grind

theorem problem?_overlay (dropped : Paths) (valid : settings.problem? = none)
    : (settings.overlay dropped).problem? = none := by
  have standard : TrainingSettings.standard.problem? = none := by decide +kernel
  rw [problem?_eq_none_iff] at standard valid ⊢
  obtain ⟨holdout, samples, trees, rounds, epochs, regimes⟩ := valid
  obtain ⟨holdout', samples', trees', rounds', epochs', regimes'⟩ := standard
  refine ⟨?_, ?_, ?_, ?_, ?_, ?_⟩
  · exact dropped.choose_of _ (p := fun x => (0.0 ≤ x && x < 1.0) = true) holdout' holdout
  · exact dropped.choose_of _
      (p := fun regimes : List Regime => (regimes.all fun regime => regime.samples = 0) = false)
      samples' samples
  · exact dropped.choose_of _ (p := fun forest : ForestSettings => forest.trees ≠ 0) trees'
      ((dropped.inside _).choose_of _ (p := (· ≠ 0)) trees' trees)
  · exact dropped.choose_of _ (p := fun boosting : BoostingSettings => boosting.rounds ≠ 0) rounds'
      ((dropped.inside _).choose_of _ (p := (· ≠ 0)) rounds' rounds)
  · exact dropped.choose_of _ (p := fun margin : MarginSettings => margin.epochs ≠ 0) epochs'
      ((dropped.inside _).choose_of _ (p := (· ≠ 0)) epochs' epochs)
  · exact dropped.choose_of _
      (p := fun regimes : List Regime => regimes.findSome? Regime.problem? = none) regimes' regimes

end Learning.TrainingSettings

namespace Rewrite.Settings

variable {settings : Settings}

/-- Settings of templates have no problem when each of them is a number that is not negative. -/
theorem problem?_eq_none_iff
    : settings.problem? = none ↔ ∀ x ∈ settings.doubles, x.isFinite = true ∧ ¬x < 0.0 := by
  simp only [problem?, Option.map_eq_none_iff, List.find?_eq_none, doubles, List.forall_mem_map,
    Bool.or_eq_true, Bool.not_eq_true', decide_eq_true_eq, not_or, Bool.not_eq_false]

theorem problem?_overlay (dropped : Paths) (valid : settings.problem? = none)
    : (settings.overlay dropped).problem? = none := by
  have standard : Settings.standard.problem? = none := by decide +kernel
  rw [problem?_eq_none_iff] at standard valid ⊢
  simp only [doubles, named, List.map_cons, List.map_nil, List.forall_mem_cons] at standard valid ⊢
  obtain ⟨narrow, planar, constants, byte, meters, -⟩ := valid
  obtain ⟨narrow', planar', constants', byte', meters', -⟩ := standard
  let sound (x : Float) : Prop := x.isFinite = true ∧ ¬x < 0.0
  exact ⟨dropped.choose_of _ (p := sound) narrow' narrow,
    dropped.choose_of _ (p := sound) planar' planar,
    dropped.choose_of _ (p := sound) constants' constants,
    dropped.choose_of _ (p := sound) byte' byte,
    dropped.choose_of _ (p := sound) meters' meters, List.forall_mem_nil _⟩

end Rewrite.Settings

namespace Spec.Thresholds

variable {t : Thresholds}

/-- Thresholds have no problem when each of five fields has none. -/
theorem problem?_eq_none_iff
    : t.problem? = none
      ↔ t.kmPerDegree > 0.0 ∧ t.longitudeCorrection > 0.0 ∧ t.smallRangeDegrees > 0.0
        ∧ (t.areaBuckets.1 < t.areaBuckets.2.1 ∧ t.areaBuckets.2.1 < t.areaBuckets.2.2)
        ∧ t.speedBuckets.1 < t.speedBuckets.2 := by
  simp only [problem?]
  grind

theorem problem?_overlay (dropped : Paths) (valid : t.problem? = none)
    : (t.overlay dropped).problem? = none := by
  have standard : Thresholds.standard.problem? = none := by decide +kernel
  rw [problem?_eq_none_iff] at standard valid ⊢
  obtain ⟨km, correction, smallRange, areas, speeds⟩ := valid
  obtain ⟨km', correction', smallRange', areas', speeds'⟩ := standard
  exact ⟨dropped.choose_of _ (p := fun x => x > 0.0) km' km,
    dropped.choose_of _ (p := fun x => x > 0.0) correction' correction,
    dropped.choose_of _ (p := fun x => x > 0.0) smallRange' smallRange,
    dropped.choose_of _ (p := fun b : Float × Float × Float => b.1 < b.2.1 ∧ b.2.1 < b.2.2)
      areas' areas,
    dropped.choose_of _ (p := fun b : Float × Float => b.1 < b.2) speeds' speeds⟩

end Spec.Thresholds

namespace EngineSettings

variable {settings : EngineSettings}

theorem problem?_eq_none_iff
    : settings.problem? = none
      ↔ Learning.isProbability settings.threshold = true ∧ settings.training.problem? = none
        ∧ settings.spec.problem? = none ∧ settings.templates.problem? = none := by
  simp [problem?, thresholdProblem?, Option.or_eq_none_iff, and_assoc]

/-- Settings without a problem have none with standard values for some of their fields. -/
theorem problem?_overlay (dropped : Paths) (valid : settings.problem? = none)
    : (settings.overlay dropped).problem? = none := by
  have standard : EngineSettings.standard.problem? = none := by decide +kernel
  rw [problem?_eq_none_iff] at standard valid ⊢
  obtain ⟨threshold, training, spec, templates⟩ := valid
  obtain ⟨threshold', training', spec', templates'⟩ := standard
  exact ⟨dropped.choose_of _ (p := fun x => Learning.isProbability x = true) threshold' threshold,
    dropped.choose_of _ (p := fun t : Learning.TrainingSettings => t.problem? = none) training'
      (Learning.TrainingSettings.problem?_overlay _ training),
    dropped.choose_of _ (p := fun t : Spec.Thresholds => t.problem? = none) spec'
      (Spec.Thresholds.problem?_overlay _ spec),
    dropped.choose_of _ (p := fun s : Rewrite.Settings => s.problem? = none) templates'
      (Rewrite.Settings.problem?_overlay _ templates)⟩

-----------------------------------------------------------------------------------------
-- Texts of settings
-----------------------------------------------------------------------------------------

theorem checked_eq (settings : EngineSettings)
    : settings.checked
      = match settings.problem? with
        | none => .ok settings
        | some problem => .error (.invalidConfig problem) := by
  unfold checked
  cases settings.problem? <;> rfl

theorem overlay_nothing (settings : EngineSettings)
    : settings.overlay (fun _ => false) = settings :=
  rfl

section Texts

variable (settings : EngineSettings) (finite : ∀ x ∈ settings.doubles, x.isFinite = true)
  (counts : ∀ n ∈ settings.training.counts, Learning.IsWord n)
  (bounds : ∀ n ∈ settings.training.bounds, Learning.IsSigned n) (dropped : Paths)

include finite counts bounds

/-- What a text without some fields writes is the overlay, which is checked then. -/
theorem ofText_without
    : ofText (settings.toJson.without dropped).write.toList
      = (settings.overlay dropped).checked := by
  have overlays := EngineSettings.overlays finite counts bounds
  have proper := proper_without _ dropped overlays.proper
  rw [ofText, write, String.toList_ofList, read?_compact proper, Option.bind_some,
    overlays.read dropped]

/-- Whatever is left out of the text of settings without a problem, they are not refused. -/
theorem ofText_without_of_valid (valid : settings.problem? = none)
    : ofText (settings.toJson.without dropped).write.toList = .ok (settings.overlay dropped) := by
  rw [ofText_without settings finite counts bounds, checked_eq, problem?_overlay dropped valid]

end Texts

/-- Settings without a problem are read back from their text. From the text of any settings without
some of their fields, the settings are read with the standard values of each structure for the
fields that were dropped of it and with all other fields as they were, and they are refused exactly
when the settings that come out have a problem.
-/
theorem settings_from_partial_text (settings : EngineSettings)
    (finite : ∀ x ∈ settings.doubles, x.isFinite = true)
    (counts : ∀ n ∈ settings.training.counts, Learning.IsWord n)
    (bounds : ∀ n ∈ settings.training.bounds, Learning.IsSigned n)
    : (settings.problem? = none → ofText settings.toJson.write.toList = .ok settings)
      ∧ ∀ dropped : Paths,
          ofText (settings.toJson.without dropped).write.toList
            = match (settings.overlay dropped).problem? with
              | none => .ok (settings.overlay dropped)
              | some problem => .error (.invalidConfig problem) := by
  have partially := ofText_without settings finite counts bounds
  constructor
  · intro valid
    have whole := partially fun _ => false
    rwa [without_nothing, overlay_nothing, checked_eq, valid] at whole
  · intro dropped
    rw [partially, checked_eq]

/-- Settings that differ from the standard ones on three levels. -/
def tuned : EngineSettings :=
  { standard with
    threshold := 0.75
    training := { Learning.TrainingSettings.standard with seed := 7, forest := ⟨10, 4, 3⟩ }
    spec := { Spec.Thresholds.standard with kmPerDegree := 111.0, speedBuckets := (30.0, 90.0) } }

/-- The threshold, the depth of the trees and the speeds. -/
def leftOut : Paths :=
  (· ∈ [["threshold"], ["training", "forest", "max_depth"], ["spec", "speed_buckets_kmh"]])

/-- The tuned settings are read back, and without three fields these are standard ones. -/
theorem tuned_from_partial_text
    : ofText tuned.toJson.write.toList = .ok tuned
      ∧ ofText (tuned.toJson.without leftOut).write.toList
        = .ok
          { standard with
            training := { Learning.TrainingSettings.standard with seed := 7, forest := ⟨10, 8, 3⟩ }
            spec := { Spec.Thresholds.standard with kmPerDegree := 111.0 } } := by
  obtain ⟨whole, partially⟩ := settings_from_partial_text tuned (by decide +kernel)
    (by decide +kernel) (by decide +kernel)
  have valid : tuned.problem? = none := by decide +kernel
  have read := partially leftOut
  rw [problem?_overlay leftOut valid] at read
  exact ⟨whole valid, read⟩

end EngineSettings

end RangeTuner
