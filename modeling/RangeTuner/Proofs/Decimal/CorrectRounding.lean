import RangeTuner.Proofs.Decimal.Nearest

/-! Rounding to the nearest double. Two bits behind a mantissa tell on which side of its half a
number lies, and shifting places away keeps what they tell. Main statement: a number in the interval
of those that round to a double is rounded to it.
-/

namespace RangeTuner.Decimal

open Float.Model (Format UnpackedFloat totalExponent)
open Float.Model.UnpackedFloat

-----------------------------------------------------------------------------------------
-- What the bits behind a mantissa tell
-----------------------------------------------------------------------------------------

/-- A number that starts with the mantissa. The first bit behind it is that of the half, and the
second one tells whether there is anything else.
-/
def Tells (em : ExtendedMantissa) (x : ℚ) : Prop :=
  match em.roundBit, em.stickyBit with
  | false, false => x = em.mantissa
  | false, true => em.mantissa < x ∧ x < em.mantissa + 1 / 2
  | true, false => x = em.mantissa + 1 / 2
  | true, true => em.mantissa + 1 / 2 < x ∧ x < em.mantissa + 1

theorem Tells.bounds {em : ExtendedMantissa} {x : ℚ} (tells : Tells em x)
    : em.mantissa ≤ x ∧ x < em.mantissa + 1 := by
  obtain ⟨m, half, rest⟩ := em
  cases half <;> cases rest <;> simp only [Tells] at tells ⊢ <;> constructor <;> linarith

/-- Half of a number is told by the mantissa without its last place, which becomes the bit of the
half.
-/
theorem Tells.shiftRightOne {em : ExtendedMantissa} {x : ℚ} (tells : Tells em x)
    : Tells em.shiftRightOne (x / 2) := by
  obtain ⟨m, half, rest⟩ := em
  obtain ⟨k, last, rfl, short⟩ : ∃ k last, m = 2 * k + last ∧ last < 2 :=
    ⟨m / 2, m % 2, (Nat.div_add_mod m 2).symm, Nat.mod_lt m two_pos⟩
  have others : (2 * k + last) / 2 = k := by omega
  have bit : ((2 * k + last) % 2 != 0) = decide (last = 1) := by
    rw [Bool.eq_iff_iff, bne_iff_ne, decide_eq_true_iff]
    omega
  simp only [Tells, ExtendedMantissa.shiftRightOne, others, bit] at tells ⊢
  push_cast at tells
  obtain rfl | rfl : last = 0 ∨ last = 1 := by omega
  all_goals
    cases half <;> cases rest <;> norm_num at tells ⊢
  all_goals first | linarith | constructor <;> linarith

/-- Shifting keeps what is told, by induction on the places. -/
theorem Tells.shiftRight {em : ExtendedMantissa} {x : ℚ} (tells : Tells em x) (places : Nat)
    : Tells (em >>> places) (x / 2 ^ places) := by
  induction places with
  | zero =>
      rw [pow_zero, div_one]
      exact tells
  | succ places ih =>
      rw [pow_succ, ← div_div]
      exact ih.shiftRightOne

/-- The whole number nearest to a number, the even one of two equally near. -/
def IsNearest (n : Nat) (x : ℚ) : Prop :=
  |x - n| ≤ 1 / 2 ∧ (|x - n| = 1 / 2 → Even n)

/-- The rounded mantissa is nearest to what is told. -/
theorem Tells.isNearest {em : ExtendedMantissa} {x : ℚ} (tells : Tells em x)
    : IsNearest em.roundedMantissa x := by
  obtain ⟨m, half, rest⟩ := em
  cases half <;> cases rest <;>
    simp only [Tells, ExtendedMantissa.roundedMantissa, ExtendedMantissa.accuracy,
      Accuracy.roundToNearestEven] at tells ⊢
  case false.false =>
    simp [IsNearest, tells]
  case false.true =>
    have distance : |x - m| < 1 / 2 := abs_lt.mpr ⟨by linarith, by linarith⟩
    exact ⟨distance.le, fun half => absurd half distance.ne⟩
  case true.false =>
    obtain ⟨k, even | odd⟩ := Nat.even_or_odd' m
    · subst even
      simp [IsNearest, tells]
    · subst odd
      have above : (2 * k + 1) + (2 * k + 1) % 2 = 2 * (k + 1) := by omega
      have distance : |x - (2 * (k + 1) : Nat)| = 1 / 2 := by
        rw [tells]
        push_cast
        rw [show (2 * (k : ℚ) + 1 + 1 / 2 - 2 * (k + 1)) = -(1 / 2) by ring, abs_neg]
        norm_num
      rw [above]
      exact ⟨distance.le, fun _ => even_two_mul _⟩
  case true.true =>
    have distance : |x - (m + 1 : Nat)| < 1 / 2 := by
      push_cast
      exact abs_lt.mpr ⟨by linarith, by linarith⟩
    exact ⟨distance.le, fun half => absurd half distance.ne⟩

/-- Only one whole number is the nearest: of two neighbours that are equally near, one is odd. -/
theorem IsNearest.unique {m n : Nat} {x : ℚ} (first : IsNearest m x) (second : IsNearest n x)
    : m = n := by
  wlog le : m ≤ n generalizing m n
  · exact (this second first (Nat.le_of_not_le le)).symm
  by_contra differs
  obtain ⟨-, high⟩ := abs_le.mp first.1
  obtain ⟨low, -⟩ := abs_le.mp second.1
  have next : n = m + 1 := by
    have near : (n : ℚ) ≤ m + 1 := by linarith
    have near : n ≤ m + 1 := by exact_mod_cast near
    omega
  subst next
  push_cast at low
  have half : x - m = 1 / 2 := by linarith
  have even : Even m := first.2 (by rw [half]; norm_num)
  have even' : Even (m + 1) := second.2 (by
    push_cast
    rw [show x - (m + 1) = -(1 / 2) by linarith, abs_neg]
    norm_num)
  exact Nat.not_even_iff_odd.mpr even.add_one even'

-----------------------------------------------------------------------------------------
-- The place that is rounded to
-----------------------------------------------------------------------------------------

/-- What is told after places were shifted away, if none are missing. -/
theorem tells_shiftToTargetExponent {m : Nat} {e place : Int} {a : Accuracy} {y : ℚ}
    (tells : Tells (.ofMantissaAndAccuracy m a) y)
    (target : max (m.log2 + e - 52) (-1074) = place) (fits : e ≤ place)
    : (shiftToTargetExponent .binary64 m e a).2 = place
      ∧ Tells (shiftToTargetExponent .binary64 m e a).1 (y * 2 ^ e / 2 ^ place) := by
  obtain ⟨places, rfl⟩ := Int.le.dest fits
  have shift : (e + places - e).toNat = places := by omega
  rw [shiftToTargetExponent, targetExponent_totalExponent, target, shiftToExponent, shift]
  refine ⟨rfl, ?_⟩
  have moved : y * 2 ^ e / 2 ^ (e + places) = y / 2 ^ places := by
    rw [zpow_add₀ two_ne_zero, zpow_natCast]
    field_simp
  rw [moved]
  exact tells.shiftRight places

/-- The last place of a double is told by the powers of two that a number lies between, and there is
none below the last one of all.
-/
theorem targetPlace_eq {m : Nat} {e place : Int} {y : ℚ} (bounds : (m : ℚ) ≤ y ∧ y < m + 1)
    (fits : e ≤ max (m.log2 + e - 52) (-1074)) (least : -1074 ≤ place)
    (low : 2 ^ (place + 52) ≤ y * 2 ^ e ∨ place = -1074) (high : y * 2 ^ e < 2 ^ (place + 53))
    : max (m.log2 + e - 52) (-1074) = place := by
  have unit : (0 : ℚ) < 2 ^ e := by positivity
  have inOrder : ∀ {a b : ℤ}, (2 : ℚ) ^ a < 2 ^ b → a < b :=
    (zpow_lt_zpow_iff_right₀ one_lt_two).mp
  rcases Nat.eq_zero_or_pos m with rfl | positive
  · -- nothing stands before the point, so the number has no place but the last one of all
    have below : y * 2 ^ e < 2 ^ e := by
      simpa using mul_lt_mul_of_pos_right bounds.2 unit
    simp only [Nat.log2_zero, Nat.cast_zero, zero_add] at fits ⊢
    rcases low with low | last
    · have order := inOrder (low.trans_lt below)
      omega
    · omega
  · obtain ⟨least, most⟩ := (Nat.log2_eq_iff (Nat.ne_of_gt positive)).mp rfl
    have above : (2 : ℚ) ^ (m.log2 + e) ≤ y * 2 ^ e := by
      rw [zpow_add₀ two_ne_zero, zpow_natCast]
      have least : (2 : ℚ) ^ m.log2 ≤ m := by exact_mod_cast least
      exact mul_le_mul_of_nonneg_right (least.trans bounds.1) unit.le
    have below : y * 2 ^ e < 2 ^ ((m.log2 : ℤ) + 1 + e) := by
      rw [zpow_add₀ two_ne_zero, ← Nat.cast_succ, zpow_natCast]
      have most : (m : ℚ) + 1 ≤ 2 ^ (m.log2 + 1) := by exact_mod_cast most
      exact mul_lt_mul_of_pos_right (bounds.2.trans_le most) unit
    have order := inOrder (above.trans_lt high)
    rcases low with low | last
    · have order' := inOrder (low.trans_lt below)
      omega
    · omega

-----------------------------------------------------------------------------------------
-- The numbers that round to a double
-----------------------------------------------------------------------------------------

/-- The magnitude of a double: fifty-three places, fewer only at the last place of all. -/
structure Binary.IsDouble (x : Binary) : Prop where
  positive : 0 < x.significand
  short : x.significand < 2 ^ 53
  full : 2 ^ 52 ≤ x.significand ∨ x.exponent = -1074
  least : -1074 ≤ x.exponent

/-- How far the interval of numbers that round to a magnitude goes below it, in its last places. -/
def Binary.below (x : Binary) : ℚ :=
  if x.significand = hiddenOne ∧ -1074 < x.exponent then 1 / 4 else 1 / 2

/-- A number in the interval of those that round to a magnitude. The interval has its ends when the
significand is even.
-/
def Binary.Attracts (x : Binary) (v : ℚ) : Prop :=
  let places := v / 2 ^ x.exponent
  if x.significand % 2 = 0 then
    x.significand - x.below ≤ places ∧ places ≤ x.significand + 1 / 2
  else x.significand - x.below < places ∧ places < x.significand + 1 / 2

theorem Binary.below_le (x : Binary)
    : x.below ≤ 1 / 2 := by
  unfold below
  split <;> norm_num

theorem Binary.Attracts.bounds {x : Binary} {v : ℚ} (attracts : x.Attracts v)
    : x.significand - x.below ≤ v / 2 ^ x.exponent
      ∧ v / 2 ^ x.exponent ≤ x.significand + 1 / 2 := by
  unfold Attracts at attracts
  split at attracts
  · exact attracts
  · exact ⟨attracts.1.le, attracts.2.le⟩

/-- In last places, a number is nearest to the significand of the magnitude that it rounds to. -/
theorem Binary.Attracts.isNearest {x : Binary} {v : ℚ} (attracts : x.Attracts v)
    : IsNearest x.significand (v / 2 ^ x.exponent) := by
  have below := x.below_le
  unfold Attracts at attracts
  split at attracts
  next even =>
    obtain ⟨low, high⟩ := attracts
    exact ⟨abs_le.mpr ⟨by linarith, by linarith⟩, fun _ => Nat.even_iff.mpr even⟩
  next =>
    obtain ⟨low, high⟩ := attracts
    have distance : |v / 2 ^ x.exponent - x.significand| < 1 / 2 :=
      abs_lt.mpr ⟨by linarith, by linarith⟩
    exact ⟨distance.le, fun half => absurd half distance.ne⟩

/-- A number that rounds to a double is below the power of two behind it. -/
theorem Binary.IsDouble.lt_of_attracts {x : Binary} {v : ℚ} (double : x.IsDouble)
    (attracts : x.Attracts v)
    : v < 2 ^ (x.exponent + 53) := by
  have short : (x.significand : ℚ) + 1 ≤ 2 ^ 53 := by exact_mod_cast double.short
  have places : v / 2 ^ x.exponent < 2 ^ 53 := by linarith [attracts.bounds.2]
  rw [div_lt_iff₀ (by positivity)] at places
  rwa [zpow_add₀ two_ne_zero, mul_comm]

/-- A number that is below the power of two that the places of a double start with, but rounds to
the double, rounds to that power with one place more.
-/
theorem Binary.IsDouble.eq_of_lt {x : Binary} {v : ℚ} (double : x.IsDouble)
    (attracts : x.Attracts v) (normal : x.exponent ≠ -1074) (lt : v < 2 ^ (x.exponent + 52))
    : x.significand = 2 ^ 52 ∧ 2 ^ (x.exponent - 1 + 52) ≤ v
      ∧ IsNearest (2 ^ 53) (v / 2 ^ (x.exponent - 1)) := by
  have unit : (0 : ℚ) < 2 ^ x.exponent := by positivity
  have low := attracts.bounds.1
  have high : v / 2 ^ x.exponent < 2 ^ 52 := by
    rw [div_lt_iff₀ unit, mul_comm]
    rwa [zpow_add₀ two_ne_zero] at lt
  have first : x.significand = 2 ^ 52 := by
    have most : (x.significand : ℚ) < (2 ^ 52 + 1 : Nat) := by
      push_cast
      linarith [x.below_le]
    have most : x.significand < 2 ^ 52 + 1 := by exact_mod_cast most
    have least := double.full.resolve_right normal
    omega
  have quarter : x.below = 1 / 4 :=
    if_pos ⟨first, lt_of_le_of_ne double.least (Ne.symm normal)⟩
  rw [first, quarter] at low
  have twice : v / 2 ^ (x.exponent - 1) = 2 * (v / 2 ^ x.exponent) := by
    rw [zpow_sub_one₀ two_ne_zero]
    field_simp
  refine ⟨first, ?_, ?_⟩
  · have half : (2 : ℚ) ^ (x.exponent - 1 + 52) = 2 ^ 51 * 2 ^ x.exponent := by
      rw [show x.exponent - 1 + 52 = 51 + x.exponent by ring, zpow_add₀ two_ne_zero]
      rfl
    rw [half, ← le_div_iff₀ unit]
    push_cast at low
    linarith
  · rw [twice]
    push_cast at low
    refine ⟨abs_le.mpr ⟨?_, ?_⟩, fun _ => by decide⟩
    · push_cast
      linarith
    · push_cast
      linarith

/-- A number in the interval of those that round to a double is rounded to it. -/
theorem roundWithAccuracy_of_attracts {x : Binary} (double : x.IsDouble) {m : Nat} {e : Int}
    {a : Accuracy} {y : ℚ} (tells : Tells (.ofMantissaAndAccuracy m a) y)
    (fits : e ≤ max (m.log2 + e - 52) (-1074)) (attracts : x.Attracts (y * 2 ^ e))
    : roundWithAccuracy .binary64 .positive m e a
      = .finite .positive x.significand x.exponent double.positive := by
  have bounds := tells.bounds
  rw [mantissa_ofMantissaAndAccuracy] at bounds
  have most := double.lt_of_attracts attracts
  have short : x.significand.log2 < 53 :=
    (Nat.log2_lt (Nat.ne_of_gt double.positive)).mpr double.short
  have least := double.least
  by_cases lower : x.exponent ≠ -1074 ∧ y * 2 ^ e < 2 ^ (x.exponent + 52)
  · -- one place more is kept at first, and rounding up to a power of two drops it again
    obtain ⟨first, above, nearest⟩ := double.eq_of_lt attracts lower.1 lower.2
    have most : y * 2 ^ e < 2 ^ (x.exponent - 1 + 53) := by
      rw [show x.exponent - 1 + 53 = x.exponent + 52 by ring]
      exact lower.2
    have target := targetPlace_eq bounds fits (by omega) (.inl above) most
    obtain ⟨place, kept⟩ := tells_shiftToTargetExponent tells target (target ▸ fits)
    have rounded := kept.isNearest.unique nearest
    have second : shiftToTargetExponent .binary64 (2 ^ 53) (x.exponent - 1) .exact
        = (⟨x.significand, false, false⟩, x.exponent) := by
      have one : (max (53 + (x.exponent - 1) - 52) (-1074) - (x.exponent - 1)).toNat = 1 := by
        omega
      rw [shiftToTargetExponent, targetExponent_totalExponent, Nat.log2_two_pow, shiftToExponent]
      simp only [Nat.cast_ofNat, one, first]
      exact Prod.ext rfl (by simp)
    simp only [roundWithAccuracy, place, rounded, second]
    exact dif_neg (Nat.ne_of_gt double.positive)
  · have target := targetPlace_eq bounds fits least (by
      by_contra neither
      obtain ⟨below, normal⟩ := not_or.mp neither
      exact lower ⟨normal, lt_of_not_ge below⟩) most
    obtain ⟨place, kept⟩ := tells_shiftToTargetExponent tells target (target ▸ fits)
    have rounded := kept.isNearest.unique attracts.isNearest
    have second := shiftToTargetExponent_of_le (m := x.significand) (e := x.exponent) .exact
      (by omega)
    simp only [roundWithAccuracy, place, rounded, second]
    exact dif_neg (Nat.ne_of_gt double.positive)

end RangeTuner.Decimal
