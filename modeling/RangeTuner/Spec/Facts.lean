import RangeTuner.Figures

/-! Facts about the domain of a program: named figures that come from a specification, or a
fixed conservative set when nothing is known. A fact is declared (`latitude_min`) or derived
from declared ones (`geographic_area_km2`).
-/

namespace RangeTuner.Spec

/-- The coarse size of an area. -/
inductive AreaCategory where
  | micro
  | small
  | medium
  | large
deriving DecidableEq, Repr

namespace AreaCategory

/-- The category's number, as facts record it. -/
def index : AreaCategory → Nat
  | .micro => 0
  | .small => 1
  | .medium => 2
  | .large => 3

/-- The category of a number, if there is one. -/
def ofIndex? : Nat → Option AreaCategory
  | 0 => some .micro
  | 1 => some .small
  | 2 => some .medium
  | 3 => some .large
  | _ => none

/-- The category that a recorded figure rounds to: figures below the first are counted to it, and
so is one that is no number; there is none above the last.
-/
def ofFigure? (figure : Float) : Option AreaCategory :=
  let nearest := figure.round
  if nearest > 3.0 then none
  else if nearest == 3.0 then some .large
  else if nearest == 2.0 then some .medium
  else if nearest == 1.0 then some .small
  else some .micro

/-- The category's name. -/
def name : AreaCategory → String
  | .micro => "micro"
  | .small => "small"
  | .medium => "medium"
  | .large => "large"

end AreaCategory

/-- The kind of traffic that a top speed speaks for. -/
inductive UsageClass where
  | urban
  | highway
  | highSpeed
deriving DecidableEq, Repr

/-- The class's number, as facts record it. -/
def UsageClass.index : UsageClass → Nat
  | .urban => 0
  | .highway => 1
  | .highSpeed => 2

/-- The class's name. -/
def UsageClass.name : UsageClass → String
  | .urban => "urban"
  | .highway => "highway"
  | .highSpeed => "high_speed"

/-- The part of the world that a specification mentions. -/
inductive Region where
  | southAmerica
  | europe
  | unknown
deriving DecidableEq, Repr

/-- Where facts come from: a specification, or the conservative set in its place. -/
inductive Origin where
  | parsed
  | conservativeDefault
deriving DecidableEq, Repr

/-- What is known about the domain of a program. -/
structure Facts where
  origin : Origin
  region : Region
  values : Figures

/-- The two coordinate axes. -/
inductive Axis where
  | latitude
  | longitude
deriving DecidableEq, Repr

/-- The name that directives declare an axis by. -/
def Axis.name : Axis → String
  | .latitude => "latitude"
  | .longitude => "longitude"

namespace Facts

/-! Names of facts. -/

/-- The fact for the lower bound of a quantity. -/
def minOf (quantity : String) : String := quantity ++ "_min"

/-- The fact for the upper bound of a quantity. -/
def maxOf (quantity : String) : String := quantity ++ "_max"

/-- The fact for the width of a quantity's range. -/
def rangeOf (quantity : String) : String := quantity ++ "_range"

/-- The fact for the precision of a quantity. -/
def precisionOf (quantity : String) : String := quantity ++ "_precision"

/-- The fact that flags a quantity's range as small. -/
def smallOf (quantity : String) : String := quantity ++ "_is_small_range"

/-- The fact for the covered area. -/
def area : String := "geographic_area_km2"

/-- The fact for the category of the covered area. -/
def category : String := "area_category"

/-- The fact for the usage class. -/
def vehicle : String := "vehicle_type"

/-- The fact for the number of records that the declared ranges were taken from. -/
def records : String := "training_records"

/-- The quantity of a vehicle's speed. -/
def speed : String := "speed"

/-- The quantity of the number of satellites. -/
def satellites : String := "satellites"

/-! Reading facts. -/

/-- No facts yet, of a specification that is being read. -/
def empty : Facts :=
  ⟨.parsed, .unknown, .empty⟩

/-- The facts used when nothing is known: the widest ranges, the largest category and no small
range.
-/
def conservative : Facts where
  origin := .conservativeDefault
  region := .unknown
  values := .ofList [
    (rangeOf Axis.latitude.name, 180.0),
    (rangeOf Axis.longitude.name, 360.0),
    (area, 50000000.0),
    (category, AreaCategory.large.index.toFloat),
    (vehicle, UsageClass.highway.index.toFloat),
    (smallOf Axis.latitude.name, 0.0),
    (smallOf Axis.longitude.name, 0.0)]

/-- These are the conservative facts. -/
def isConservative (facts : Facts) : Bool :=
  facts.origin = .conservativeDefault

/-- A fact, if it is known. -/
def get? (facts : Facts) (name : String) : Option Float :=
  facts.values.get? name

/-- The facts with one written. -/
def insert (facts : Facts) (name : String) (figure : Float) : Facts :=
  { facts with values := facts.values.insert name figure }

/-- The covered area in square kilometres. -/
def area? (facts : Facts) : Option Float :=
  facts.get? area

/-- The category of the covered area. -/
def category? (facts : Facts) : Option AreaCategory :=
  (facts.get? category).bind AreaCategory.ofFigure?

/-- The quantity's range is known to be small. -/
def isSmall (facts : Facts) (quantity : String) : Bool :=
  (facts.get? (smallOf quantity)).any (· ≥ 0.5)

/-- The ranges of both axes are known to be small. -/
def bothAxesSmall (facts : Facts) : Bool :=
  facts.isSmall Axis.latitude.name && facts.isSmall Axis.longitude.name

/-- The bounds of a quantity, when both are known. -/
def bounds? (facts : Facts) (quantity : String) : Option (Float × Float) := do
  let low ← facts.get? (minOf quantity)
  let high ← facts.get? (maxOf quantity)
  return (low, high)

/-- The middle of a range. -/
def middle (bounds : Float × Float) : Float :=
  (bounds.1 + bounds.2) / 2.0

/-- The center of the covered area, latitude first, when the bounds of both axes are known. -/
def center? (facts : Facts) : Option (Float × Float) := do
  let latitudes ← facts.bounds? Axis.latitude.name
  let longitudes ← facts.bounds? Axis.longitude.name
  return (middle latitudes, middle longitudes)

/-- The written fact is known and the others stay as they were. -/
theorem get?_insert (facts : Facts) (name other : String) (figure : Float)
    : (facts.insert name figure).get? other
      = if name = other then some figure else facts.get? other :=
  facts.values.get?_insert name other figure

end Facts

end RangeTuner.Spec
