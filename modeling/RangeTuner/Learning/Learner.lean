import RangeTuner.Learning.Boosting
import RangeTuner.Learning.Forest
import RangeTuner.Learning.Margin

/-! Learners of the three kinds behind one face. -/

namespace RangeTuner.Learning

/-- A learner, trained or not. -/
inductive Learner where
  | forest (f : Forest Float)
  | boosting (b : Boosting)
  | margin (m : Margin)

namespace Learner

/-- An untrained learner of a kind; the stream sets learners of one seed apart. -/
def untrained (kind : LearnerKind) (settings : TrainingSettings) (stream : UInt64) : Learner :=
  let seed := settings.seed + stream
  match kind with
  | .forest => .forest ⟨settings.forest, seed, []⟩
  | .boosting => .boosting ⟨settings.boosting, 0.0, []⟩
  | .margin => .margin ⟨settings.margin, seed, [], 0.0⟩

/-- The learner's kind. -/
def kind : Learner → LearnerKind
  | .forest _ => .forest
  | .boosting _ => .boosting
  | .margin _ => .margin

/-- The learner trained on rows and their labels. -/
def fit (learner : Learner) (rows : List (List Float)) (labels : List Bool)
    : Except Fault Learner :=
  match learner with
  | .forest f => return .forest (← f.fit rows labels)
  | .boosting b => return .boosting (← b.fit rows labels)
  | .margin m => return .margin (← m.fit rows labels)

/-- The probability of "apply", of learners that estimate one. -/
def probability? (learner : Learner) (row : List Float) : Option Float :=
  match learner with
  | .forest f => some (f.probability row)
  | .boosting b => some (b.probability row)
  | .margin _ => none

/-- The score of a row; a positive one speaks for "apply". -/
def score (learner : Learner) (row : List Float) : Float :=
  match learner with
  | .forest f => f.margin row
  | .boosting b => b.score row
  | .margin m => m.score row

/-- The decision for a row. -/
def decide (learner : Learner) (row : List Float) : Decision Float :=
  match learner with
  | .forest f => f.decide row
  | .boosting b => b.decide row
  | .margin m => m.decide row

end Learner

end RangeTuner.Learning
