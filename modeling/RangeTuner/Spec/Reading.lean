import RangeTuner.Spec.Directive
import RangeTuner.Spec.Facts
import RangeTuner.Text.Idiom

/-! From the text of a specification to facts. Directives are taken line by line, a later one
overriding an earlier one of its kind and name, and faulty lines are passed over. Facts derived
from the declared ones come last. A text that declares nothing, or no text, yields the
conservative facts.
-/

namespace RangeTuner.Spec

open RangeTuner.Text RangeTuner.Decimal

/-- The constants that facts are derived with. -/
structure Thresholds where
  /-- Kilometres per degree of latitude. -/
  kmPerDegree : Float
  /-- What a degree of longitude is worth of a degree of latitude, on average. -/
  longitudeCorrection : Float
  /-- A coordinate range narrower than this, in degrees, is small. -/
  smallRangeDegrees : Float
  /-- The areas where the categories above the first begin. -/
  areaBuckets : Float × Float × Float
  /-- The highest speeds of the usage classes below the last. -/
  speedBuckets : Float × Float

/-- The thresholds used where nothing else is configured. -/
def Thresholds.standard : Thresholds where
  kmPerDegree := 111.32
  longitudeCorrection := 0.96
  smallRangeDegrees := 1.0
  areaBuckets := (100.0, 10000.0, 1000000.0)
  speedBuckets := (50.0, 120.0)

namespace Thresholds

/-- Why thresholds are refused; a constant that is no number is refused too. -/
def problem? (t : Thresholds) : Option String :=
  let (micro, small, medium) := t.areaBuckets
  let (urban, highway) := t.speedBuckets
  if !(t.kmPerDegree > 0.0) || !(t.longitudeCorrection > 0.0) then
    some "degree conversion constants must be positive"
  else if !(t.smallRangeDegrees > 0.0) then some "small_range_degrees must be positive"
  else if !(micro < small && small < medium) then
    some "area_buckets_km2 must be strictly ascending"
  else if !(urban < highway) then some "speed_buckets_kmh must be strictly ascending"
  else none

/-- The category of an area. -/
def category (t : Thresholds) (area : Float) : AreaCategory :=
  let (micro, small, medium) := t.areaBuckets
  if area < micro then .micro
  else if area < small then .small
  else if area < medium then .medium
  else .large

/-- The usage class of a top speed. -/
def usage (t : Thresholds) (topSpeed : Float) : UsageClass :=
  let (urban, highway) := t.speedBuckets
  if topSpeed ≤ urban then .urban
  else if topSpeed ≤ highway then .highway
  else .highSpeed

/-- The area that two coordinate widths span, in square kilometres. -/
def areaOf (t : Thresholds) (latitudes longitudes : Float) : Float :=
  latitudes * t.kmPerDegree * (longitudes * t.kmPerDegree * t.longitudeCorrection)

/-- The figure of the flag that says whether a width is small. -/
def smallFlag (t : Thresholds) (width : Float) : Float :=
  if width.abs < t.smallRangeDegrees then 1.0 else 0.0

/-- The facts with the flag of one axis, where its width is known. -/
def deriveSmall (t : Thresholds) (facts : Facts) (axis : Axis) : Facts :=
  match facts.get? (Facts.rangeOf axis.name) with
  | some width => facts.insert (Facts.smallOf axis.name) (t.smallFlag width)
  | none => facts

/-- The facts with the area and its category, where both widths are known. -/
def deriveArea (t : Thresholds) (facts : Facts) : Facts :=
  match facts.get? (Facts.rangeOf Axis.latitude.name),
    facts.get? (Facts.rangeOf Axis.longitude.name) with
  | some latitudes, some longitudes =>
      let area := t.areaOf latitudes longitudes
      (facts.insert Facts.area area).insert Facts.category (t.category area).index.toFloat
  | _, _ => facts

/-- The facts with the usage class, where the top speed is known. -/
def deriveUsage (t : Thresholds) (facts : Facts) : Facts :=
  match facts.get? (Facts.maxOf Facts.speed) with
  | some top => facts.insert Facts.vehicle (t.usage top).index.toFloat
  | none => facts

/-- The facts with everything that can be derived from them. -/
def derive (t : Thresholds) (facts : Facts) : Facts :=
  t.deriveUsage (t.deriveArea (t.deriveSmall (t.deriveSmall facts .latitude) .longitude))

end Thresholds

/-- The facts with what one directive declares. -/
def Facts.declare (facts : Facts) : Directive → Facts
  | .range r =>
      ((facts.insert (minOf r.name) r.min).insert (maxOf r.name) r.max).insert
        (rangeOf r.name) r.width
  | .precision p => facts.insert (precisionOf p.name) p.value

/-- The well-formed directives of a text, in order. -/
def directives (text : List Char) : List Directive :=
  (lines text).filterMap fun line =>
    match Directive.ofLine? line with
    | some (.ok directive) => some directive
    | _ => none

/-- The remark that tells how many records the ranges were taken from; what is found is the
digits of the number, of any script.
-/
def recordsRemark : Idiom (List Char) where
  opening := .anywhere
  scan := do
    Scanner.oneOfLetters ["registros analizados", "records analyzed"]
    Scanner.spaced ":"
    Scanner.run1 isDigit

/-- The number of records of the first remark, when its digits are 0 to 9. -/
def recordCount? (text : List Char) : Option Float :=
  match (recordsRemark.findAll text).head? with
  | some ds => if ds.all Char.isDigit then some (nearest (value ds) 0) else none
  | none => none

/-- The part of the world that a text mentions, the first that is listed. -/
def regionOf (text : List Char) : Region :=
  if occurs "Perú".toList text || occurs "Peru".toList text then .southAmerica
  else if occurs "España".toList text || occurs "Spain".toList text then .europe
  else .unknown

/-- The facts that a text declares, without the derived ones. -/
def declaredFacts (text : List Char) : Facts :=
  let declared := (directives text).foldl Facts.declare .empty
  match recordCount? text with
  | some count => declared.insert Facts.records count
  | none => declared

/-- The facts of a specification. -/
def Thresholds.read (t : Thresholds) : Option (List Char) → Facts
  | none => .conservative
  | some text =>
      if (directives text).isEmpty && (recordCount? text).isNone then .conservative
      else t.derive { declaredFacts text with region := regionOf text }

end RangeTuner.Spec
