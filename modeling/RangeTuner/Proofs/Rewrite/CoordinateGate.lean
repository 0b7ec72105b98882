import RangeTuner.Proofs.Rewrite.Caution
import RangeTuner.Proofs.Spec.Derivation

/-! Rewrites that rely on coordinates, and the ranges that a specification declares for them. An
area is known only where both axes are declared. The flags of small ranges can be forged, because
a range named like an axis with `_is_small` after it is recorded where the flag of the axis would
be. Main statement: edits that rely on coordinates need declared axes, and for range guards this
holds exactly where no flag is forged.
-/

namespace RangeTuner.Rewrite

open RangeTuner.Decimal RangeTuner.Spec

/-- Both axes are taken for small, and at least one of them by a forged flag. -/
def FlagForged (t : Thresholds) (text : List Char) : Prop :=
  (∀ axis, DeclaredSmall t text axis ∨ ForgedSmall text axis) ∧ ∃ axis, ForgedSmall text axis

/-- The optimization edits the source in this run. -/
def Edits (settings : Settings) (facts : Facts) (report : GateReport) (source : List Char)
    (optimization : Optimization)
    : Prop :=
  ⟨optimization, .applied⟩ ∈ (apply settings facts report source).edits

instance (settings : Settings) (facts : Facts) (report : GateReport) (source : List Char)
    (optimization : Optimization)
    : Decidable (Edits settings facts report source optimization) :=
  inferInstanceAs (Decidable (_ ∈ _))

variable {settings : Settings} {t : Thresholds} {text : List Char}

/-- Range guards are removed where each axis is declared as small or forged. -/
theorem authorizes_rangeGuards_iff
    : authorizes settings (t.read (some text)) .removeRangeGuards = true
      ↔ ∀ axis, DeclaredSmall t text axis ∨ ForgedSmall text axis := by
  show (t.read (some text)).bothAxesSmall = true ↔ _
  rw [Facts.bothAxesSmall, Bool.and_eq_true, isSmall_read_iff, isSmall_read_iff]
  constructor
  · rintro ⟨latitude, longitude⟩ axis
    cases axis with
    | latitude => exact latitude
    | longitude => exact longitude
  · exact fun small => ⟨small .latitude, small .longitude⟩

/-- The templates that hold the area against a ceiling. -/
def areaTemplates : List Optimization :=
  [.narrowCoordinates, .planarDistance, .zoneConstants]

theorem exists_area_of_authorizes {facts : Facts} {optimization : Optimization}
    (held : optimization ∈ areaTemplates)
    (authorized : authorizes settings facts optimization = true)
    : ∃ area, facts.area? = some area := by
  have within : ∃ ceiling, areaWithin ceiling facts = true := by
    simp only [areaTemplates, List.mem_cons, List.not_mem_nil, or_false] at held
    rcases held with rfl | rfl | rfl
    · exact ⟨_, authorized⟩
    · exact ⟨_, authorized⟩
    · exact ⟨_, (Bool.and_eq_true_iff.mp authorized).1⟩
  obtain ⟨ceiling, within⟩ := within
  cases known : facts.area? with
  | none => simp [areaWithin, known] at within
  | some area => exact ⟨area, rfl⟩

/-- They are authorized only where both axes are declared. -/
theorem declares_of_area_authorized (cautious : settings.Cautious)
    {optimization : Optimization} (held : optimization ∈ areaTemplates)
    (authorized : authorizes settings (t.read (some text)) optimization = true) (axis : Axis)
    : Declares text axis.name := by
  obtain ⟨area, known⟩ := exists_area_of_authorizes held authorized
  rcases area?_read known with conservative | declared
  · have aggressive : ∀ o ∈ areaTemplates, o.isAggressive = true := by decide
    rw [conservative, authorizes_conservative cautious, aggressive optimization held] at authorized
    cases authorized
  · exact exists_lastRange?_iff.mp (declared axis)

/-- Where no flag is forged, range guards are removed only for declared small ranges. -/
theorem declaredSmall_of_rangeGuards_authorized (genuine : ¬ FlagForged t text)
    (authorized : authorizes settings (t.read (some text)) .removeRangeGuards = true)
    (axis : Axis)
    : DeclaredSmall t text axis := by
  have small := authorizes_rangeGuards_iff.mp authorized
  exact (small axis).resolve_right fun forged => genuine ⟨small, axis, forged⟩

/-- A report that approves the removal of range guards alone. -/
def rangeGuardsApproved : GateReport where
  threshold := 0.7
  decisions := [⟨.removeRangeGuards, .approved, 1.0, "forced"⟩]

/-- Where the facts authorize it, there is a source whose range guard is removed. -/
theorem edits_rangeGuard {facts : Facts}
    (authorized : authorizes settings facts .removeRangeGuards = true)
    : Edits settings facts rangeGuardsApproved "if (lat < -90 || lat > 90) { return; }".toList
        .removeRangeGuards := by
  have turn : turns rangeGuardsApproved = [.removeRangeGuards] := by decide
  have changed : RangeGuards.rewrite "if (lat < -90 || lat > 90) { return; }".toList
      ≠ "if (lat < -90 || lat > 90) { return; }".toList := by decide
  have applied : outcome settings facts .removeRangeGuards
      "if (lat < -90 || lat > 90) { return; }".toList = .applied := by
    rw [outcome_eq_applied_iff, transform, if_pos authorized]
    exact changed
  rw [Edits, apply_eq, turn, records, applied]
  exact List.mem_cons_self

/-- Main statement: an area template edits only where the specification declares both axes. The
template for range guards edits only where it declares both as smaller than the threshold,
exactly when no flag is forged.
-/
theorem coordinate_edits_need_declared_ranges (t : Thresholds) (text : List Char)
    : (∀ settings report source, settings.Cautious
        → ∀ optimization ∈ areaTemplates,
          Edits settings (t.read (some text)) report source optimization
          → ∀ axis : Axis, Declares text axis.name)
      ∧ ((∀ settings report source, settings.Cautious
          → Edits settings (t.read (some text)) report source .removeRangeGuards
          → ∀ axis : Axis, Declares text axis.name
            ∧ ∃ r, lastRange? text axis.name = some r ∧ r.width < t.smallRangeDegrees)
        ↔ ¬ FlagForged t text) := by
  refine ⟨?_, ?_, ?_⟩
  · intro settings report source cautious optimization held edited axis
    exact declares_of_area_authorized cautious held (authorizes_of_applied edited) axis
  · rintro claimed ⟨small, axis, undeclared, -⟩
    have authorized : authorizes .standard (t.read (some text)) .removeRangeGuards = true :=
      authorizes_rangeGuards_iff.mpr small
    obtain ⟨declared, -⟩ :=
      claimed .standard _ _ Settings.standard_cautious (edits_rangeGuard authorized) axis
    obtain ⟨r, last⟩ := exists_lastRange?_iff.mpr declared
    rw [undeclared] at last
    cases last
  · intro genuine settings report source cautious edited axis
    obtain ⟨r, last, narrow⟩ :=
      declaredSmall_of_rangeGuards_authorized genuine (authorizes_of_applied edited) axis
    exact ⟨exists_lastRange?_iff.mp ⟨r, last⟩, r, last, float_lt_of_abs_lt narrow⟩

/-- Two ranges that forge both flags. -/
def forgedText : List Char :=
  "range latitude_is_small == [0, 1]\nrange longitude_is_small == [0, 1]\n".toList

/-- They lead to the removal of a range guard and declare no axis. -/
theorem edits_of_forgedText
    : Edits .standard (Thresholds.standard.read (some forgedText)) rangeGuardsApproved
        "if (lat < -90 || lat > 90) { return; }".toList .removeRangeGuards
      ∧ Settings.standard.Cautious
      ∧ ∀ axis : Axis, ¬ Declares forgedText axis.name := by
  refine ⟨by decide +kernel, Settings.standard_cautious, fun axis declared => ?_⟩
  obtain ⟨r, last⟩ := exists_lastRange?_iff.mpr declared
  have unknown : (declaredFacts forgedText).get? (Facts.rangeOf axis.name) = none := by
    cases axis <;> decide +kernel
  rw [get?_declaredFacts_range, last] at unknown
  cases unknown

end RangeTuner.Rewrite
