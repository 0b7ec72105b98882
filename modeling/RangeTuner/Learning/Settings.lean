import RangeTuner.Decimal.Notation
import RangeTuner.Fault
import RangeTuner.Learning.Regime

/-! What training is configured with: the parameters of each learner and the regimes that rows
are drawn from. Settings are checked as a whole before anything is drawn.
-/

namespace RangeTuner.Learning

/-- How forests are grown. -/
structure ForestSettings where
  trees : Nat
  maxDepth : Nat
  minSamplesSplit : Nat
deriving DecidableEq, Repr

/-- How boosted trees are grown. -/
structure BoostingSettings where
  rounds : Nat
  learningRate : Float
  maxDepth : Nat

/-- How linear margins are trained. -/
structure MarginSettings where
  epochs : Nat
  learningRate : Float
  regularization : Float

/-- What a bank of learners is trained with. -/
structure TrainingSettings where
  seed : UInt64
  /-- The share of rows on which each learner is tried instead of trained. -/
  holdoutFraction : Float
  forest : ForestSettings
  boosting : BoostingSettings
  margin : MarginSettings
  regimes : List Regime

/-- The settings used where nothing else is configured. -/
def ForestSettings.standard : ForestSettings :=
  ⟨100, 8, 2⟩

/-- The settings used where nothing else is configured. -/
def BoostingSettings.standard : BoostingSettings :=
  ⟨100, 0.1, 3⟩

/-- The settings used where nothing else is configured. -/
def MarginSettings.standard : MarginSettings :=
  ⟨200, 0.1, 0.01⟩

/-- The settings used where nothing else is configured. -/
def TrainingSettings.standard : TrainingSettings where
  seed := 42
  holdoutFraction := 0.2
  forest := .standard
  boosting := .standard
  margin := .standard
  regimes := [.micro, .medium, .global]

open RangeTuner.Decimal

/-- A number from zero to one, both included. -/
def isProbability (p : Float) : Bool :=
  0.0 ≤ p && p ≤ 1.0

/-- Why a regime is refused. -/
def Regime.problem? (regime : Regime) : Option String :=
  if regime.area.1 > regime.area.2 then
    some ("regime `" ++ regime.name ++ "` has an inverted area range")
  else
    match regime.applies.toList.find? fun entry => !isProbability entry.2 with
    | some (optimization, p) =>
        some ("regime `" ++ regime.name ++ "` has label probability " ++ plain p ++ " for "
          ++ optimization.id)
    | none => none

/-- Why settings are refused. -/
def TrainingSettings.problem? (settings : TrainingSettings) : Option String :=
  if !(0.0 ≤ settings.holdoutFraction && settings.holdoutFraction < 1.0) then
    some ("holdout_fraction must be in [0, 1), got " ++ plain settings.holdoutFraction)
  else if settings.regimes.all fun regime => regime.samples = 0 then
    some "training regimes produce no samples"
  else if settings.forest.trees = 0 || settings.boosting.rounds = 0
      || settings.margin.epochs = 0 then
    some "trees, rounds and epochs must be positive"
  else settings.regimes.findSome? Regime.problem?

/-- The fault of a configuration with a problem. -/
def refuse : Option String → Except Fault Unit
  | none => .ok ()
  | some problem => .error (.invalidConfig problem)

end RangeTuner.Learning
