import RangeTuner.Text.Lines

/-! The catalogue of optimizations. Everything that is kept per optimization is listed in
declaration order, which is also the order in which sources are rewritten.
-/

namespace RangeTuner

/-- A rewrite that the engine knows how to attempt. -/
inductive Optimization where
  | narrowCoordinates
  | removeRangeGuards
  | planarDistance
  | removeNullGuards
  | compressStorage
  | zoneConstants
deriving DecidableEq, Repr

/-- The decision procedures that learn when to apply an optimization. -/
inductive LearnerKind where
  | forest
  | boosting
  | margin
deriving DecidableEq, Repr

/-- The kind's name. -/
def LearnerKind.name : LearnerKind → String
  | .forest => "random_forest"
  | .boosting => "gradient_boosting"
  | .margin => "linear_margin"

namespace Optimization

/-- All optimizations in declaration order. -/
def all : List Optimization :=
  [narrowCoordinates, removeRangeGuards, planarDistance, removeNullGuards, compressStorage,
    zoneConstants]

/-- The place in declaration order. -/
def index : Optimization → Nat
  | narrowCoordinates => 0
  | removeRangeGuards => 1
  | planarDistance => 2
  | removeNullGuards => 3
  | compressStorage => 4
  | zoneConstants => 5

/-- The identifier that reports, models and options use. -/
def id : Optimization → String
  | narrowCoordinates => "use_float_instead_double"
  | removeRangeGuards => "eliminate_range_checks"
  | planarDistance => "use_euclidean_approx"
  | removeNullGuards => "eliminate_null_checks"
  | compressStorage => "compress_data_types"
  | zoneConstants => "precompute_constants"

/-- What the optimization does, in a few words. -/
def summary : Optimization → String
  | narrowCoordinates => "narrow coordinate types from double to float"
  | removeRangeGuards => "drop latitude/longitude range guards"
  | planarDistance => "replace great-circle distance with a planar approximation"
  | removeNullGuards => "drop null pointer guards"
  | compressStorage => "store speed and satellite counts in a single byte"
  | zoneConstants => "inject precomputed zone constants"

/-- The decision procedure behind the optimization. -/
def learner : Optimization → LearnerKind
  | narrowCoordinates | planarDistance | compressStorage => .forest
  | removeRangeGuards | zoneConstants => .boosting
  | removeNullGuards => .margin

/-- The optimization is safe only for the declared ranges. -/
def isAggressive (optimization : Optimization) : Bool :=
  optimization ≠ removeNullGuards

/-- The optimization of an identifier. -/
def ofId? (id : String) : Option Optimization :=
  all.find? fun optimization => optimization.id = id

/-- The optimization of an identifier with blanks around it. -/
def ofText? (text : String) : Option Optimization :=
  ofId? (.ofList (Text.trim text.toList))

/-- Every optimization is listed, by cases. -/
theorem mem_all (optimization : Optimization)
    : optimization ∈ all := by
  cases optimization <;> decide

/-- Reading an identifier finds its optimization, by cases. -/
theorem ofId?_id (optimization : Optimization)
    : ofId? optimization.id = some optimization := by
  cases optimization <;> decide

end Optimization

/-- One value per optimization, where there is one. -/
structure PerOptimization (α : Type) where
  get? : Optimization → Option α

namespace PerOptimization

variable {α β : Type}

/-- No values. -/
def empty : PerOptimization α :=
  ⟨fun _ => none⟩

/-- The same value for every optimization, or one computed from it. -/
def tabulate (f : Optimization → α) : PerOptimization α :=
  ⟨fun optimization => some (f optimization)⟩

/-- The values with one written. -/
def insert (t : PerOptimization α) (optimization : Optimization) (a : α) : PerOptimization α :=
  ⟨fun other => if other = optimization then some a else t.get? other⟩

/-- The values present, with their optimizations, in declaration order. -/
def toList (t : PerOptimization α) : List (Optimization × α) :=
  Optimization.all.filterMap fun optimization => (t.get? optimization).map (optimization, ·)

/-- The values of a list of entries, the last of several for one optimization. -/
def ofList (entries : List (Optimization × α)) : PerOptimization α :=
  entries.foldl (fun t entry => t.insert entry.1 entry.2) empty

/-- Every optimization has a value. -/
def isComplete (t : PerOptimization α) : Bool :=
  Optimization.all.all fun optimization => (t.get? optimization).isSome

/-- The values, computed from the present ones. -/
def map (f : α → β) (t : PerOptimization α) : PerOptimization β :=
  ⟨fun optimization => (t.get? optimization).map f⟩

end PerOptimization

end RangeTuner
