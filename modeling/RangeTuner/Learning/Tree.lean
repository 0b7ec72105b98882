import RangeTuner.Learning.Random
import RangeTuner.Learning.Scalar

/-! Regression trees. A tree is grown on examples by splitting them, again and again, at the cut
that lessens their squared errors most. What a leaf holds is up to a rule over the examples that
reach it, so one grower serves averaging and boosting.
-/

namespace RangeTuner.Learning

/-- A tree that asks for one column of a row at each inner node. -/
inductive Tree (α : Type) where
  | leaf (value : α)
  | split (feature : Nat) (threshold : α) (left right : Tree α)

namespace Tree

variable {α : Type}

/-- The value of the leaf that a row reaches; a missing column reads as zero. -/
@[specialize] def eval [Scalar α] (row : List α) : Tree α → α
  | .leaf value => value
  | .split feature threshold left right =>
      if Scalar.le (row.getD feature Scalar.zero) threshold then eval row left
      else eval row right

/-- The number of questions on the longest way to a leaf. -/
def depth : Tree α → Nat
  | .leaf _ => 0
  | .split _ _ left right => 1 + max left.depth right.depth

end Tree

/-- A cut found so far: how much it gains, its column and where it divides. -/
structure Cut (α : Type) where
  gain : α
  feature : Nat
  threshold : α

/-- The number, sum and sum of squares of a list of targets. -/
structure Moments (α : Type) where
  count : α
  sum : α
  squares : α

namespace Moments

variable {α : Type} [Scalar α]

/-- The moments of a list. -/
@[specialize] def ofList (targets : List α) : Moments α :=
  ⟨Scalar.ofNat targets.length, Scalar.sum targets, Scalar.sum (targets.map fun y => y * y)⟩

/-- The sum of the squared distances from the mean. -/
@[specialize] def error (m : Moments α) : α :=
  m.squares - m.sum * m.sum / m.count

end Moments

/-- How trees are grown on examples of a type. -/
structure Grower (ε α : Type) where
  /-- A column of an example. -/
  reading : ε → Nat → α
  /-- What is to be told of an example. -/
  target : ε → α
  /-- Fewer examples than this are not split. -/
  minSplit : Nat
  /-- The columns that are searched for one split. -/
  columns : Draw (List Nat)
  /-- The value of a leaf that these examples reach. -/
  leaf : List ε → α

namespace Grower

variable {ε α : Type} [Scalar α]

/-- The least gain that counts, and by how much a later cut must beat an earlier one. -/
def margin : α :=
  Scalar.ofDecimal 1 12

/-- Two neighbouring readings lie too close for a cut between them. -/
@[specialize] def tooClose (a b : α) : Bool :=
  Scalar.le (b - a)
    (Scalar.one / Scalar.ofNat 4503599627370496 * Scalar.max (Scalar.abs a) Scalar.one)

/-- The best cut when one more reading is passed: the one before, unless the cut between the
readings `a` and `b` is clearly better.
-/
@[specialize] def consider (feature : Nat) (all : Moments α) (passed : Nat) (sum squares : α)
    (best : Option (Cut α)) (a b : α)
    : Option (Cut α) :=
  if tooClose a b then best
  else
    let count : α := Scalar.ofNat passed
    let left := squares - sum * sum / count
    let others := all.sum - sum
    let right := (all.squares - squares) - others * others / (all.count - count)
    let gain := all.error - left - right
    let cut : Cut α := ⟨gain, feature, (a + b) / Scalar.ofNat 2⟩
    match best with
    | none => some cut
    | some old => if Scalar.lt (old.gain + margin) gain then some cut else best

/-- Goes through readings and targets in ascending order, `passed` counting those already passed
and `sum` and `squares` measuring them, and keeps the best cut between two neighbours.
-/
@[specialize] def scan (feature : Nat) (all : Moments α) (passed : Nat) (sum squares : α)
    (best : Option (Cut α))
    : List (α × α) → Option (Cut α)
  | (a, y) :: (b, z) :: rest =>
      let passed := passed + 1
      let sum := sum + y
      let squares := squares + y * y
      scan feature all passed sum squares
        (consider feature all passed sum squares best a b) ((b, z) :: rest)
  | _ => best

/-- The readings of one column with the targets, in ascending order of the readings. -/
@[specialize] def ordered (grower : Grower ε α) (examples : List ε) (feature : Nat)
    : List (α × α) :=
  (examples.map fun e => (grower.reading e feature, grower.target e)).mergeSort
    fun p q => Scalar.before p.1 q.1

/-- The best cut of the given columns, if one gains enough: an earlier one unless a later one is
clearly better.
-/
@[specialize] def bestCut? (grower : Grower ε α) (examples : List ε) (features : List Nat)
    : Option (Cut α) :=
  let all := Moments.ofList (examples.map grower.target)
  let best := features.foldl
    (fun best feature =>
      scan feature all 0 Scalar.zero Scalar.zero best (grower.ordered examples feature))
    none
  best.filter fun cut => Scalar.lt margin cut.gain

/-- Examples on the left side of a cut. -/
@[specialize] def goesLeft (grower : Grower ε α) (cut : Cut α) (e : ε) : Bool :=
  Scalar.le (grower.reading e cut.feature) cut.threshold

/-- The tree of a list of examples, with at most so many questions on a way. -/
@[specialize] def grow (grower : Grower ε α) : (questions : Nat) → List ε → Draw (Tree α)
  | 0, examples => return .leaf (grower.leaf examples)
  | questions + 1, examples => do
      let targets := Moments.ofList (examples.map grower.target)
      if examples.length < grower.minSplit || Scalar.lt targets.error margin then
        return .leaf (grower.leaf examples)
      else
        match grower.bestCut? examples (← grower.columns) with
        | none => return .leaf (grower.leaf examples)
        | some cut =>
            let left := examples.filter (grower.goesLeft cut)
            let right := examples.filter fun e => !grower.goesLeft cut e
            if left.isEmpty || right.isEmpty then return .leaf (grower.leaf examples)
            else
              return .split cut.feature cut.threshold
                (← grower.grow questions left) (← grower.grow questions right)

end Grower

end RangeTuner.Learning
