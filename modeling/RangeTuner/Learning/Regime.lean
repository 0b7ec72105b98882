import RangeTuner.Optimization

/-! Regimes: descriptions of kinds of zones from which labelled rows are drawn. -/

namespace RangeTuner.Learning

/-- A whole-numbered feature drawn from `low` up to, and without, `high`. -/
structure Jitter where
  feature : String
  low : Int
  high : Int

/-- A kind of zone: how its sources look and how often each optimization pays off there. -/
structure Regime where
  name : String
  samples : Nat
  codeFeatures : List Jitter
  /-- The least and the greatest area in square kilometres. -/
  area : Float × Float
  /-- The area categories, the last one excluded. -/
  areaCategory : Int × Int
  smallRange : Bool
  /-- The usage classes, the last one excluded. -/
  vehicle : Int × Int
  /-- The probability of the label "apply", where there is one. -/
  applies : PerOptimization Float

namespace Regime

/-- The probabilities of a list, for the optimizations in declaration order. -/
def probabilities (values : List Float) : PerOptimization Float :=
  .ofList (Optimization.all.zip values)

/-- Small zones, where everything pays off. -/
def micro : Regime where
  name := "micro"
  samples := 50
  codeFeatures := [
    ⟨"trigonometric_count", 2, 8⟩,
    ⟨"sqrt_operations_count", 1, 4⟩,
    ⟨"distance_calculations_count", 1, 5⟩,
    ⟨"double_usage_count", 3, 10⟩,
    ⟨"range_checks_count", 2, 8⟩,
    ⟨"cyclomatic_complexity", 5, 15⟩,
    ⟨"lines_of_code", 100, 500⟩]
  area := (10.0, 200.0)
  areaCategory := (0, 1)
  smallRange := true
  vehicle := (0, 2)
  applies := probabilities [1.0, 1.0, 1.0, 1.0, 1.0, 1.0]

/-- Zones of the size of a province. -/
def medium : Regime where
  name := "medium"
  samples := 30
  codeFeatures := [
    ⟨"trigonometric_count", 3, 12⟩,
    ⟨"sqrt_operations_count", 2, 6⟩,
    ⟨"distance_calculations_count", 2, 8⟩,
    ⟨"double_usage_count", 5, 15⟩,
    ⟨"range_checks_count", 4, 12⟩,
    ⟨"cyclomatic_complexity", 8, 25⟩,
    ⟨"lines_of_code", 200, 800⟩]
  area := (1000.0, 50000.0)
  areaCategory := (1, 2)
  smallRange := false
  vehicle := (1, 3)
  applies := probabilities [0.7, 0.6, 0.4, 0.7, 0.5, 0.6]

/-- Zones without bounds to speak of. -/
def global : Regime where
  name := "global"
  samples := 20
  codeFeatures := [
    ⟨"trigonometric_count", 5, 20⟩,
    ⟨"sqrt_operations_count", 3, 10⟩,
    ⟨"distance_calculations_count", 3, 15⟩,
    ⟨"double_usage_count", 8, 25⟩,
    ⟨"range_checks_count", 6, 20⟩,
    ⟨"cyclomatic_complexity", 15, 40⟩,
    ⟨"lines_of_code", 500, 2000⟩]
  area := (100000.0, 50000000.0)
  areaCategory := (2, 4)
  smallRange := false
  vehicle := (0, 3)
  applies := probabilities [0.3, 0.0, 0.0, 0.4, 0.2, 0.3]

end Regime

end RangeTuner.Learning
