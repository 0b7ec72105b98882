import RangeTuner.Proofs.Spec.Declaration

/-! Derived facts. Deriving writes five facts from the declared widths and the declared top speed,
and leaves the others. Where its source is not declared, a derived fact keeps the figure that was
there. Main statements: the derived facts, and what a specification is read as.
-/

namespace RangeTuner.Spec

namespace Thresholds

variable (t : Thresholds)

-----------------------------------------------------------------------------------------
-- Deriving
-----------------------------------------------------------------------------------------

/-- The flag of an axis is derived from its width; other facts are left. -/
theorem get?_deriveSmall (facts : Facts) (axis : Axis) (fact : String)
    : (t.deriveSmall facts axis).get? fact
      = if Facts.smallOf axis.name = fact then
          ((facts.get? (Facts.rangeOf axis.name)).map t.smallFlag).or (facts.get? fact)
        else facts.get? fact := by
  unfold deriveSmall
  cases facts.get? (Facts.rangeOf axis.name) with
  | none => simp
  | some width =>
      rw [Facts.get?_insert]
      rfl

/-- The area that both widths span, where they are known. -/
def spannedArea? (facts : Facts) : Option Float := do
  let latitudes ← facts.get? (Facts.rangeOf Axis.latitude.name)
  let longitudes ← facts.get? (Facts.rangeOf Axis.longitude.name)
  return t.areaOf latitudes longitudes

/-- The area is derived from both widths; other facts are left. -/
theorem get?_deriveArea (facts : Facts) (fact : String)
    : (t.deriveArea facts).get? fact
      = if Facts.category = fact then
          ((t.spannedArea? facts).map fun area => (t.category area).index.toFloat).or
            (facts.get? fact)
        else if Facts.area = fact then (t.spannedArea? facts).or (facts.get? fact)
        else facts.get? fact := by
  unfold deriveArea spannedArea?
  cases facts.get? (Facts.rangeOf Axis.latitude.name) with
  | none => simp
  | some latitudes =>
      cases facts.get? (Facts.rangeOf Axis.longitude.name) with
      | none => simp
      | some longitudes =>
          simp only [Facts.get?_insert]
          rfl

theorem get?_deriveUsage (facts : Facts) (fact : String)
    : (t.deriveUsage facts).get? fact
      = if Facts.vehicle = fact then
          ((facts.get? (Facts.maxOf Facts.speed)).map fun top => (t.usage top).index.toFloat).or
            (facts.get? fact)
        else facts.get? fact := by
  unfold deriveUsage
  cases facts.get? (Facts.maxOf Facts.speed) with
  | none => simp
  | some top =>
      rw [Facts.get?_insert]
      rfl

/-- Deriving a flag leaves the widths, and with them the area they span. -/
theorem spannedArea?_deriveSmall (facts : Facts) (axis : Axis)
    : t.spannedArea? (t.deriveSmall facts axis) = t.spannedArea? facts := by
  have latitudes : Facts.smallOf axis.name ≠ Facts.rangeOf Axis.latitude.name := by
    cases axis <;> decide
  have longitudes : Facts.smallOf axis.name ≠ Facts.rangeOf Axis.longitude.name := by
    cases axis <;> decide
  unfold spannedArea?
  rw [get?_deriveSmall, if_neg latitudes, get?_deriveSmall, if_neg longitudes]

/-- The figure that is derived for a fact, if there is one. -/
def derived? (facts : Facts) (fact : String) : Option Float :=
  if Facts.vehicle = fact then
    (facts.get? (Facts.maxOf Facts.speed)).map fun top => (t.usage top).index.toFloat
  else if Facts.category = fact then
    (t.spannedArea? facts).map fun area => (t.category area).index.toFloat
  else if Facts.area = fact then t.spannedArea? facts
  else if Facts.smallOf Axis.longitude.name = fact then
    (facts.get? (Facts.rangeOf Axis.longitude.name)).map t.smallFlag
  else if Facts.smallOf Axis.latitude.name = fact then
    (facts.get? (Facts.rangeOf Axis.latitude.name)).map t.smallFlag
  else none

/-- Deriving writes what is derived for each fact, and leaves the others. -/
theorem get?_derive (facts : Facts) (fact : String)
    : (t.derive facts).get? fact = (t.derived? facts fact).or (facts.get? fact) := by
  have top : (t.deriveArea (t.deriveSmall (t.deriveSmall facts .latitude) .longitude)).get?
      (Facts.maxOf Facts.speed) = facts.get? (Facts.maxOf Facts.speed) := by
    rw [get?_deriveArea, if_neg (by decide), if_neg (by decide), get?_deriveSmall,
      if_neg (by decide), get?_deriveSmall, if_neg (by decide)]
  have width : (t.deriveSmall facts .latitude).get? (Facts.rangeOf Axis.longitude.name)
      = facts.get? (Facts.rangeOf Axis.longitude.name) := by
    rw [get?_deriveSmall, if_neg (by decide)]
  unfold derive derived?
  rw [get?_deriveUsage, top, get?_deriveArea, spannedArea?_deriveSmall,
    spannedArea?_deriveSmall, get?_deriveSmall, width, get?_deriveSmall]
  -- The names of the derived facts differ, so each is written once.
  by_cases vehicle : Facts.vehicle = fact
  · subst vehicle
    rfl
  by_cases category : Facts.category = fact
  · subst category
    rfl
  by_cases area : Facts.area = fact
  · subst area
    rfl
  by_cases longitude : Facts.smallOf Axis.longitude.name = fact
  · subst longitude
    rfl
  by_cases latitude : Facts.smallOf Axis.latitude.name = fact
  · subst latitude
    rfl
  simp [vehicle, category, area, longitude, latitude]

/-- The flag of an axis, after everything is derived. -/
theorem get?_derive_small (facts : Facts) (axis : Axis)
    : (t.derive facts).get? (Facts.smallOf axis.name)
      = ((facts.get? (Facts.rangeOf axis.name)).map t.smallFlag).or
          (facts.get? (Facts.smallOf axis.name)) := by
  rw [get?_derive]
  cases axis <;> rfl

/-- The area, after everything is derived. -/
theorem get?_derive_area (facts : Facts)
    : (t.derive facts).get? Facts.area
      = (t.spannedArea? facts).or (facts.get? Facts.area) := by
  rw [get?_derive]
  rfl

/-- A width is flagged as small when it is below the threshold. -/
theorem smallFlag_ge_iff (width : Float)
    : t.smallFlag width ≥ 0.5 ↔ width.abs < t.smallRangeDegrees := by
  unfold smallFlag
  by_cases small : width.abs < t.smallRangeDegrees
  · simp only [small, if_true, iff_true]
    decide
  · simp only [small, if_false, iff_false]
    decide

-----------------------------------------------------------------------------------------
-- What a specification is read as
-----------------------------------------------------------------------------------------

/-- A text is read as the facts derived from what it declares, unless it is silent. -/
theorem read_some (text : List Char)
    : (directives text = [] ∧ t.read (some text) = .conservative)
      ∨ t.read (some text) = t.derive { declaredFacts text with region := regionOf text } := by
  by_cases nothing : ((directives text).isEmpty && (recordCount? text).isNone) = true
  · have none := List.isEmpty_iff.mp (Bool.and_eq_true_iff.mp nothing).1
    exact .inl ⟨none, if_pos nothing⟩
  · exact .inr (if_neg nothing)

end Thresholds

theorem get?_inRegion (facts : Facts) (region : Region) (fact : String)
    : { facts with region := region }.get? fact = facts.get? fact :=
  rfl

theorem lastRange?_of_directives_eq_nil {text : List Char} (silent : directives text = [])
    (quantity : String)
    : lastRange? text quantity = none := by
  simp [lastRange?, silent]

/-- The last range that the text declares for the axis is below the threshold. -/
def DeclaredSmall (t : Thresholds) (text : List Char) (axis : Axis) : Prop :=
  ∃ r, lastRange? text axis.name = some r ∧ r.width.abs < t.smallRangeDegrees

/-- The text declares no range for the axis, but a range for a quantity of another name, whose
width stands where the flag of the axis would.
-/
def ForgedSmall (text : List Char) (axis : Axis) : Prop :=
  lastRange? text axis.name = none
  ∧ ∃ r, lastRange? text (axis.name ++ "_is_small") = some r ∧ r.width ≥ 0.5

/-- The flag of an axis is the width of a quantity of another name. -/
theorem smallOf_eq_rangeOf (axis : Axis)
    : Facts.smallOf axis.name = Facts.rangeOf (axis.name ++ "_is_small") := by
  cases axis <;> decide

/-- The range of an axis is known to be small when it is declared so, or when the flag is forged.
-/
theorem isSmall_read_iff (t : Thresholds) (text : List Char) (axis : Axis)
    : (t.read (some text)).isSmall axis.name = true
      ↔ DeclaredSmall t text axis ∨ ForgedSmall text axis := by
  rcases t.read_some text with ⟨silent, conservative⟩ | derived
  · have unflagged : Facts.conservative.isSmall axis.name = false := by cases axis <;> decide
    simp [conservative, unflagged, DeclaredSmall, ForgedSmall,
      lastRange?_of_directives_eq_nil silent]
  · have flag
        : (t.read (some text)).get? (Facts.smallOf axis.name)
          = (((lastRange? text axis.name).map RangeDirective.width).map t.smallFlag).or
              ((lastRange? text (axis.name ++ "_is_small")).map RangeDirective.width) := by
      rw [derived, t.get?_derive_small, ← get?_declaredFacts_range, ← get?_declaredFacts_range,
        ← smallOf_eq_rangeOf]
      simp only [get?_inRegion]
    rw [Facts.isSmall, flag, DeclaredSmall, ForgedSmall]
    cases lastRange? text axis.name with
    | some r => simp [t.smallFlag_ge_iff]
    | none =>
        cases lastRange? text (axis.name ++ "_is_small") with
        | some r => simp
        | none => simp

/-- Where the area is known, it is the conservative one, or both axes are declared. -/
theorem area?_read {t : Thresholds} {text : List Char} {area : Float}
    (known : (t.read (some text)).area? = some area)
    : t.read (some text) = .conservative
      ∨ ∀ axis : Axis, ∃ r, lastRange? text axis.name = some r := by
  rcases t.read_some text with ⟨-, conservative⟩ | derived
  · exact .inl conservative
  · right
    have undeclared : (declaredFacts text).get? Facts.area = none :=
      get?_declaredFacts_of_undeclarable area_undeclarable (by decide) text
    rw [derived, Facts.area?, t.get?_derive_area, get?_inRegion, undeclared, Option.or_none,
      Thresholds.spannedArea?] at known
    simp only [get?_inRegion, get?_declaredFacts_range] at known
    intro axis
    cases latitudes : lastRange? text Axis.latitude.name with
    | none => simp [latitudes] at known
    | some r =>
        cases longitudes : lastRange? text Axis.longitude.name with
        | none => simp [longitudes] at known
        | some s =>
            cases axis with
            | latitude => exact ⟨r, latitudes⟩
            | longitude => exact ⟨s, longitudes⟩

end RangeTuner.Spec
