import RangeTuner.Proofs.Decimal.Comparison
import RangeTuner.Proofs.Rewrite.Run

/-! Caution: what the conservative facts authorize. They know the widest ranges and no bounds, so
only the removal of null guards is left, as long as the widest area is above the ceilings. Main
statements: what is authorized, and the text and the records of a run.
-/

namespace RangeTuner.Rewrite

open RangeTuner.Decimal RangeTuner.Spec

/-- The area that is assumed where nothing is known is above both ceilings for areas. -/
structure Settings.Cautious (settings : Settings) : Prop where
  narrow : settings.narrowCeiling < 50000000.0
  planar : settings.planarCeiling < 50000000.0

theorem Settings.standard_cautious : Settings.standard.Cautious :=
  ⟨by decide, by decide⟩

variable {settings : Settings} {report : GateReport}

-----------------------------------------------------------------------------------------
-- What is authorized
-----------------------------------------------------------------------------------------

/-- The area that is assumed where nothing is known is within no ceiling below it. -/
theorem areaWithin_conservative {ceiling : Float} (low : ceiling < 50000000.0)
    : areaWithin ceiling .conservative = false := by
  have assumed : Facts.conservative.area? = some 50000000.0 := by decide
  simp [areaWithin, assumed, float_not_le_of_lt low]

theorem fits_conservative {quantity : String}
    (unknown : Facts.conservative.get? (Facts.maxOf quantity) = none)
    : CompressStorage.fits settings .conservative quantity = false := by
  simp [CompressStorage.fits, unknown]

/-- Conservative facts authorize what is not aggressive, and nothing else. -/
theorem authorizes_conservative (cautious : settings.Cautious) (optimization : Optimization)
    : authorizes settings .conservative optimization = !optimization.isAggressive := by
  cases optimization with
  | narrowCoordinates => exact areaWithin_conservative cautious.narrow
  | removeRangeGuards =>
      show Facts.conservative.bothAxesSmall = false
      decide
  | planarDistance => exact areaWithin_conservative cautious.planar
  | removeNullGuards => rfl
  | compressStorage =>
      simp only [authorizes, CompressStorage.authorizes,
        fits_conservative (by decide : Facts.conservative.get? (Facts.maxOf Facts.speed) = none),
        fits_conservative
          (by decide : Facts.conservative.get? (Facts.maxOf Facts.satellites) = none)]
      rfl
  | zoneConstants =>
      have nowhere : Facts.conservative.center? = none := by decide
      simp [authorizes, ZoneConstants.authorizes, nowhere, Optimization.isAggressive]

-----------------------------------------------------------------------------------------
-- What is done
-----------------------------------------------------------------------------------------

/-- The only template that edits on conservative facts is the one for null guards. -/
theorem text_apply_conservative (cautious : settings.Cautious) (text : List Char)
    : (apply settings .conservative report text).text
      = if report.approves .removeNullGuards then NullGuards.rewrite text else text := by
  have harmless : (Optimization.all.filter fun o => !o.isAggressive) = [.removeNullGuards] := by
    decide
  have authorized
      : (turns report).filter (authorizes settings .conservative)
        = [Optimization.removeNullGuards].filter report.approves := by
    rw [funext (authorizes_conservative cautious), ← harmless, turns]
    simp only [List.filter_filter, Bool.and_comm]
  rw [apply_eq, ← textAfter_filter, authorized]
  cases approved : report.approves .removeNullGuards with
  | true =>
      rw [List.filter_cons_of_pos approved]
      rfl
  | false =>
      rw [List.filter_cons_of_neg (by simp [approved])]
      rfl

/-- On conservative facts, nothing comes of an aggressive optimization. -/
theorem outcome_conservative (cautious : settings.Cautious) {optimization : Optimization}
    (aggressive : optimization.isAggressive = true) (text : List Char)
    : outcome settings .conservative optimization text = .preconditionFailed := by
  rw [outcome_eq_preconditionFailed_iff, authorizes_conservative cautious, aggressive]
  rfl

/-- A run on conservative facts records that nothing came of an approved aggressive optimization. -/
theorem mem_edits_apply_conservative (cautious : settings.Cautious)
    {optimization : Optimization} (aggressive : optimization.isAggressive = true)
    (approved : report.approves optimization = true) (text : List Char)
    : ⟨optimization, .preconditionFailed⟩
      ∈ (apply settings .conservative report text).edits := by
  have turn : optimization ∈ turns report :=
    List.mem_filter.mpr ⟨Optimization.mem_all optimization, approved⟩
  rw [apply_eq, records_eq_map (turns_nodup report)]
  refine List.mem_map.mpr ⟨optimization, turn, ?_⟩
  rw [outcome_conservative cautious aggressive]

/-- A run on conservative facts records nothing else of an aggressive optimization. -/
theorem outcome_of_mem_edits_conservative (cautious : settings.Cautious) {text : List Char}
    {edit : Edit} (member : edit ∈ (apply settings .conservative report text).edits)
    (aggressive : edit.optimization.isAggressive = true)
    : edit.outcome = .preconditionFailed := by
  rw [apply_eq] at member
  obtain ⟨found, came⟩ := exists_text_of_mem_records member
  exact came.trans (outcome_conservative cautious aggressive found)

end RangeTuner.Rewrite
