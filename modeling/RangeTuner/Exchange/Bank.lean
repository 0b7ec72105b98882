import RangeTuner.Exchange.Learner
import RangeTuner.Json.Writer
import RangeTuner.Learning.Bank
import RangeTuner.Text.Encoded
import RangeTuner.Text.Quoted

/-! The JSON form of a bank of learners, and saved banks. Only a trained bank is saved, and a text
is a saved bank only when what it holds is trained on the same columns.
-/

namespace RangeTuner.Learning

open RangeTuner.Json RangeTuner.Text

namespace TrainingSummary

/-- The names of the fields. -/
def fields : List String :=
  ["samples", "columns", "seed", "holdout_accuracy"]

/-- All fields in order. -/
def toJson (summary : TrainingSummary) : Json :=
  .object [
    ("samples", .ofNat summary.samples),
    ("columns", .ofNat summary.columns),
    ("seed", .ofWord summary.seed),
    ("holdout_accuracy", summary.holdoutAccuracy.toJson (.ofOption .ofFloat))]

/-- The summary of a structure. -/
def ofJson? (j : Json) : Option TrainingSummary := do
  let r ← record? .strict fields j
  return {
    samples := ← r.require "samples" nat?
    columns := ← r.require "columns" nat?
    seed := ← r.require "seed" word?
    holdoutAccuracy := ← r.require "holdout_accuracy" (PerOptimization.ofJson? (option? float?)) }

end TrainingSummary

namespace Bank

/-- The names of the fields. -/
def fields : List String :=
  ["config", "columns", "scaler", "learners", "summary"]

/-- All fields in order. -/
def toJson (bank : Bank) : Json :=
  .object [
    ("config", bank.settings.toJson),
    ("columns", .ofList .string bank.columns),
    ("scaler", .ofOption Standardizer.toJson bank.standardizer),
    ("learners", bank.learners.toJson Learner.toJson),
    ("summary", .ofOption TrainingSummary.toJson bank.summary)]

/-- The greatest depth of a learner inside a text, which is read to a limited depth. -/
def deepest : Nat :=
  125

/-- The learner of a tagged structure that is not too deep. -/
def learner? (j : Json) : Option Learner :=
  if j.depth ≤ deepest then Learner.ofJson? j else none

/-- The bank of a structure. -/
def ofJson? (j : Json) : Option Bank := do
  let r ← record? .strict fields j
  return {
    settings := ← r.require "config" TrainingSettings.ofJson?
    columns := ← r.require "columns" (list? string?)
    standardizer := ← r.optional "scaler" Standardizer.ofJson?
    learners := ← r.require "learners" (PerOptimization.ofJson? learner?)
    summary := ← r.optional "summary" TrainingSummary.ofJson? }

/-- The text of a bank; only a trained one is saved. -/
def save (bank : Bank) : Except Fault String :=
  if bank.isTrained then .ok (write bank.toJson) else .error .notTrained

/-- Why the columns of a saved bank are refused. -/
def columnsProblem? (columns : List String) : Option String :=
  if columns = Inputs.columns then none
  else
    some ("saved bank columns " ++ .ofList (quotedList (columns.map String.toList))
      ++ " do not match the current input columns")

/-- The bank that a value saves, when it is trained and on the current columns. -/
def loadRead (saved : Option Json) : Except Fault Bank :=
  match saved.bind ofJson? with
  | none => .error .data
  | some bank =>
      if bank.isTrained then do
        refuse (columnsProblem? bank.columns)
        return bank
      else .error .notTrained

/-- The bank that a text saves. -/
def load (text : List Char) : Except Fault Bank :=
  loadRead (read? text)

/-- The bank that bytes save. -/
def loadBytes (bytes : ByteArray) : Except Fault Bank :=
  loadRead (readDecoded? (decoded bytes))

end Bank

end RangeTuner.Learning
