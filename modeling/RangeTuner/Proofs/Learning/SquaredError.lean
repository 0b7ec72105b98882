import Mathlib.Algebra.BigOperators.Group.List.Basic
import Mathlib.Algebra.Order.Ring.Rat
import Mathlib.Tactic.FieldSimp
import Mathlib.Tactic.Ring
import RangeTuner.Learning.Tree

/-! Exact arithmetic for learners, and the error of a list of targets in it. The count, the sum
and the sum of squares of a list, which are gathered in one pass, give the sum of the squared
distances from its mean.
-/

namespace RangeTuner.Learning

/-- Rationals, compared and sorted by their values. -/
instance : Scalar ℚ where
  ofNat n := n
  ofDecimal mantissa places := mantissa / 10 ^ places
  lt x y := decide (x < y)
  le x y := decide (x ≤ y)
  before x y := decide (x ≤ y)

namespace Scalar

variable (x y : ℚ)

@[simp] theorem ofNat_rat (n : Nat) : (ofNat n : ℚ) = n := rfl

@[simp] theorem zero_rat : (zero : ℚ) = 0 := Nat.cast_zero

@[simp] theorem one_rat : (one : ℚ) = 1 := Nat.cast_one

@[simp] theorem lt_rat : lt x y = decide (x < y) := rfl

@[simp] theorem le_rat : le x y = decide (x ≤ y) := rfl

@[simp] theorem before_rat : before x y = decide (x ≤ y) := rfl

@[simp] theorem abs_rat : Scalar.abs x = |x| := by
  simp only [Scalar.abs, lt_rat, zero_rat, decide_eq_true_eq]
  split
  next negative => exact (abs_of_neg negative).symm
  next positive => exact (abs_of_nonneg (not_lt.mp positive)).symm

@[simp] theorem max_rat : Scalar.max x y = Max.max x y := by
  simp only [Scalar.max, lt_rat, decide_eq_true_eq]
  split
  next less => exact (max_eq_right less.le).symm
  next most => exact (max_eq_left (not_lt.mp most)).symm

/-- A sum from the start is the sum. -/
@[simp] theorem sum_rat (xs : List ℚ) : Scalar.sum xs = xs.sum := by
  rw [Scalar.sum, zero_rat, neg_zero, List.sum_eq_foldl]

end Scalar

/-- The sum of the squared distances of targets from their mean. -/
def squaredError (targets : List ℚ) : ℚ :=
  (targets.map fun y => (y - targets.sum / targets.length) ^ 2).sum

/-- Squared distances from any point are known from the count, the sum and the sum of squares. -/
theorem sum_sq_sub (targets : List ℚ) (point : ℚ)
    : (targets.map fun y => (y - point) ^ 2).sum
      = (targets.map fun y => y * y).sum - 2 * point * targets.sum
        + targets.length * point ^ 2 := by
  induction targets with
  | nil => simp
  | cons y rest ih =>
      simp only [List.map_cons, List.sum_cons, List.length_cons, ih]
      push_cast
      ring

/-- The squared error is known from the count, the sum and the sum of squares. -/
theorem squaredError_eq (targets : List ℚ)
    : squaredError targets
      = (targets.map fun y => y * y).sum - targets.sum * targets.sum / targets.length := by
  rw [squaredError, sum_sq_sub]
  cases targets with
  | nil => simp
  | cons y rest =>
      have some_targets : ((y :: rest).length : ℚ) ≠ 0 :=
        Nat.cast_ne_zero.mpr (Nat.succ_ne_zero _)
      field_simp
      ring

/-- The error that is computed from the moments of a list is its squared error. -/
theorem Moments.error_ofList (targets : List ℚ)
    : (Moments.ofList targets).error = squaredError targets := by
  simp only [squaredError_eq, Moments.error, Moments.ofList, Scalar.sum_rat, Scalar.ofNat_rat]

/-- The order of the targets does not matter for their moments. -/
theorem Moments.ofList_perm {targets others : List ℚ} (same : targets.Perm others)
    : Moments.ofList targets = .ofList others := by
  simp only [Moments.ofList, Scalar.sum_rat, same.length_eq, same.sum_eq, (same.map _).sum_eq]

/-- The order of the targets does not matter for their error. -/
theorem squaredError_perm {targets others : List ℚ} (same : targets.Perm others)
    : squaredError targets = squaredError others := by
  rw [← Moments.error_ofList, ← Moments.error_ofList, Moments.ofList_perm same]

end RangeTuner.Learning
