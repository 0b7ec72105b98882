import RangeTuner.Optimization

/-! What can go wrong in the use of the engine. Sources and specifications never cause a fault:
they only lead to default facts or to no edit.
-/

namespace RangeTuner

/-- The causes of faults. -/
inductive Fault where
  /-- Predictions were asked of a bank that has not been trained. -/
  | notTrained
  | unknownOptimization (id : String)
  | emptyTrainingSet
  | shapeMismatch (expected actual : Nat)
  | invalidConfig (problem : String)
  /-- A file could not be read or written. -/
  | file
  /-- A text is not the data it should be. -/
  | data
deriving DecidableEq, Repr

/-- The words of a fault; faults of files and data get theirs from where they arose. -/
def Fault.message? : Fault → Option String
  | .notTrained =>
      some "classifier bank is not trained; call `ClassifierBank::train` before predicting"
  | .unknownOptimization id => some ("unknown optimization id `" ++ id ++ "`")
  | .emptyTrainingSet => some "training set is empty"
  | .shapeMismatch expected actual =>
      some ("feature row has " ++ toString actual ++ " columns, expected " ++ toString expected)
  | .invalidConfig problem => some ("invalid configuration: " ++ problem)
  | .file | .data => none

/-- The optimization of an identifier, or the fault that there is none. -/
def Optimization.ofText (text : String) : Except Fault Optimization :=
  match ofText? text with
  | some optimization => .ok optimization
  | none => .error (.unknownOptimization text)

end RangeTuner
