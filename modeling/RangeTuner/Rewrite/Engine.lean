import RangeTuner.Gate
import RangeTuner.Rewrite.CompressStorage
import RangeTuner.Rewrite.Guards
import RangeTuner.Rewrite.NarrowCoordinates
import RangeTuner.Rewrite.ZoneConstants

/-! The transformation engine: the templates of all approved optimizations are applied in
declaration order, each to what the one before it left, and for each it is recorded what came of
it.
-/

namespace RangeTuner.Rewrite

open RangeTuner.Spec

/-- What came of an approved optimization. -/
inductive EditOutcome where
  | applied
  | preconditionFailed
  | noMatch
deriving DecidableEq, Repr

/-- The outcome's name. -/
def EditOutcome.name : EditOutcome → String
  | .applied => "applied"
  | .preconditionFailed => "precondition_failed"
  | .noMatch => "no_match"

/-- The record of one approved optimization. -/
structure Edit where
  optimization : Optimization
  outcome : EditOutcome
deriving DecidableEq, Repr

/-- A text and the records of what was done to it. -/
structure Transformed where
  text : List Char
  edits : List Edit
deriving DecidableEq, Repr

/-- The facts authorize the optimization's template to edit. -/
def authorizes (settings : Settings) (facts : Facts) : Optimization → Bool
  | .narrowCoordinates => NarrowCoordinates.authorizes settings facts
  | .removeRangeGuards => RangeGuards.authorizes facts
  | .planarDistance => PlanarDistance.authorizes settings facts
  | .removeNullGuards => true
  | .compressStorage => CompressStorage.authorizes settings facts
  | .zoneConstants => ZoneConstants.authorizes settings facts

/-- The edit of the optimization's template, whether authorized or not. -/
def rewrite (settings : Settings) (facts : Facts) (optimization : Optimization)
    (text : List Char)
    : List Char :=
  match optimization with
  | .narrowCoordinates => NarrowCoordinates.rewrite text
  | .removeRangeGuards => RangeGuards.rewrite text
  | .planarDistance => PlanarDistance.rewrite settings facts text
  | .removeNullGuards => NullGuards.rewrite text
  | .compressStorage => CompressStorage.rewrite settings facts text
  | .zoneConstants => ZoneConstants.rewrite settings facts text

/-- The text after the optimization's template, which edits only when it is authorized. -/
def transform (settings : Settings) (facts : Facts) (optimization : Optimization)
    (text : List Char)
    : List Char :=
  if authorizes settings facts optimization then rewrite settings facts optimization text
  else text

/-- What comes of an optimization on a text. -/
def outcome (settings : Settings) (facts : Facts) (optimization : Optimization)
    (text : List Char)
    : EditOutcome :=
  if !authorizes settings facts optimization then .preconditionFailed
  else if rewrite settings facts optimization text = text then .noMatch
  else .applied

/-- The text and its records after one more optimization, if it is approved. -/
def step (settings : Settings) (facts : Facts) (report : GateReport) (done : Transformed)
    (optimization : Optimization)
    : Transformed :=
  if report.approves optimization then
    ⟨transform settings facts optimization done.text,
      done.edits ++ [⟨optimization, outcome settings facts optimization done.text⟩]⟩
  else done

/-- The text after all approved optimizations. -/
def apply (settings : Settings) (facts : Facts) (report : GateReport) (text : List Char)
    : Transformed :=
  Optimization.all.foldl (step settings facts report) ⟨text, []⟩

end RangeTuner.Rewrite
