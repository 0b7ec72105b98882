import RangeTuner.Exchange.Catalogue
import RangeTuner.Source.Features
import RangeTuner.Spec.Directive
import RangeTuner.Spec.Facts

/-! The JSON forms of directives, facts and features. -/

namespace RangeTuner

namespace Spec

/-- A unit of precision is the name of the common one, or an object with another name. -/
def PrecisionUnit.toJson : PrecisionUnit → Json
  | .decimalPlaces => .string "decimal_places"
  | .named unit => .object [("unit", .string unit)]

/-- A directive is tagged with its kind. -/
def Directive.toJson : Directive → Json
  | .range r => .object [
      ("kind", .string Keyword.range.text),
      ("name", .string r.name),
      ("min", .ofFloat r.min),
      ("max", .ofFloat r.max),
      ("unit", .ofOption .string r.unit)]
  | .precision p => .object [
      ("kind", .string Keyword.precision.text),
      ("name", .string p.name),
      ("value", .ofFloat p.value),
      ("unit", p.unit.toJson)]

/-- The region's name. -/
def Region.name : Region → String
  | .southAmerica => "south_america"
  | .europe => "europe"
  | .unknown => "unknown"

/-- The origin's name. -/
def Origin.name : Origin → String
  | .parsed => "parsed"
  | .conservativeDefault => "conservative_default"

/-- Facts are written with their origin. -/
def Facts.toJson (facts : Facts) : Json :=
  .object [
    ("origin", .string facts.origin.name),
    ("region", .string facts.region.name),
    ("values", facts.values.toJson)]

end Spec

/-- Features are written with the number of lines. -/
def Source.Features.toJson (features : Features) : Json :=
  .object [
    (linesName, .ofNat features.linesOfCode),
    ("values", features.values.toJson)]

end RangeTuner
