import RangeTuner.Proofs.Decimal.NearestDouble

/-! The shortest decimal of a double rounds to it. Testing a multiple of a power of ten compares it
with the interval of numbers that round to the magnitude, and the last grid that is tried is too
fine to miss the interval. Main statement: the shortest decimal is in that interval.
-/

namespace RangeTuner.Decimal

/-- The number that a decimal stands for. -/
def Scaled.value (d : Scaled) : ℚ :=
  d.count * 10 ^ d.place

namespace Binary

variable {x : Binary} {place : Int}

-----------------------------------------------------------------------------------------
-- Testing a multiple of a power of ten
-----------------------------------------------------------------------------------------

theorem inUnits_pos (x : Binary) (place : Int)
    : 0 < (x.inUnits place).2 := by
  simp [inUnits]

/-- Counted in units, a magnitude is a fraction of whole numbers. -/
theorem value_eq_inUnits (x : Binary) (place : Int)
    : x.value = (x.inUnits place).1 / (x.inUnits place).2 * 10 ^ place := by
  have units : (x.inUnits place).1 = (x.inUnits 0).1 * 10 ^ (-place).toNat
      ∧ (x.inUnits place).2 = (x.inUnits 0).2 * 10 ^ place.toNat := by
    simp [inUnits]
  rw [value_eq_div, units.1, units.2]
  have positive : ((x.inUnits 0).2 : ℚ) ≠ 0 := by exact_mod_cast (x.inUnits_pos 0).ne'
  rcases place.le_total 0 with negative | whole
  · obtain ⟨k, rfl⟩ := Int.exists_eq_neg_ofNat negative
    simp only [Int.toNat_neg_natCast, neg_neg, Int.toNat_natCast, zpow_neg, zpow_natCast]
    push_cast
    field_simp
  · obtain ⟨k, rfl⟩ := Int.eq_ofNat_of_zero_le whole
    simp only [Int.toNat_neg_natCast, Int.toNat_natCast, zpow_natCast]
    push_cast
    field_simp

/-- A quarter of the last place of a magnitude. -/
def quarter (x : Binary) : Binary :=
  ⟨1, x.exponent - 2⟩

/-- A unit in which quarters of the last place and multiples of a power of ten are whole numbers. -/
theorem exists_unit (x : Binary) (place : Int)
    : ∃ unit : ℚ, 0 < unit
      ∧ (∀ k : Nat, (k / 4 : ℚ) = (k * (x.quarter.inUnits place).1 : Nat) * unit)
      ∧ ∀ count : Nat, count * 10 ^ place / 2 ^ x.exponent
          = (count * (x.quarter.inUnits place).2 : Nat) * unit := by
  have size : (4 : ℚ) * x.quarter.value = 2 ^ x.exponent := by
    simp only [quarter, value, Nat.cast_one, one_mul]
    rw [zpow_sub₀ two_ne_zero]
    norm_num
    ring
  have base : (0 : ℚ) < (x.quarter.inUnits place).2 := by
    exact_mod_cast x.quarter.inUnits_pos place
  have last : (0 : ℚ) < 2 ^ x.exponent := by positivity
  have same := x.quarter.value_eq_inUnits place
  refine ⟨10 ^ place / ((x.quarter.inUnits place).2 * 2 ^ x.exponent), by positivity, ?_, ?_⟩
  · intro k
    push_cast
    rw [← size, same]
    have above : (0 : ℚ) < (x.quarter.inUnits place).1 := by
      simp [quarter, inUnits]
    field_simp
  · intro count
    push_cast
    field_simp

theorem quarters_le_iff (x : Binary) (place : Int) (k count : Nat)
    : (k * (x.quarter.inUnits place).1 ≤ count * (x.quarter.inUnits place).2
        ↔ (k / 4 : ℚ) ≤ count * 10 ^ place / 2 ^ x.exponent)
      ∧ (count * (x.quarter.inUnits place).2 ≤ k * (x.quarter.inUnits place).1
        ↔ (count * 10 ^ place / 2 ^ x.exponent : ℚ) ≤ k / 4) := by
  obtain ⟨unit, positive, quarters, multiples⟩ := x.exists_unit place
  rw [quarters, multiples, mul_le_mul_iff_left₀ positive, mul_le_mul_iff_left₀ positive,
    Nat.cast_le, Nat.cast_le]
  exact ⟨Iff.rfl, Iff.rfl⟩

/-- What is tested is whether a multiple of a power of ten rounds to the magnitude. -/
theorem readsBack_iff (positive : 0 < x.significand) (count : Nat)
    : x.readsBack place count = true ↔ x.Attracts (count * 10 ^ place) := by
  have low : ((4 * x.significand
      - (if x.significand = hiddenOne ∧ -1074 < x.exponent then 1 else 2) : Nat) / 4 : ℚ)
        = x.significand - x.below := by
    unfold below
    split <;> rw [Nat.cast_sub (by omega)] <;> push_cast <;> ring
  have high : ((4 * x.significand + 2 : Nat) / 4 : ℚ) = x.significand + 1 / 2 := by
    push_cast
    ring
  have lowEnd := x.quarters_le_iff place (4 * x.significand
    - (if x.significand = hiddenOne ∧ -1074 < x.exponent then 1 else 2)) count
  have highEnd := x.quarters_le_iff place (4 * x.significand + 2) count
  rw [low] at lowEnd
  rw [high] at highEnd
  unfold Attracts
  change (if x.significand % 2 = 0 then _ else _) = true ↔ _
  split
  · rw [Bool.and_eq_true, decide_eq_true_iff, decide_eq_true_iff]
    exact and_congr lowEnd.1 highEnd.2
  · rw [Bool.and_eq_true, decide_eq_true_iff, decide_eq_true_iff]
    exact and_congr (lt_iff_lt_of_le_iff_le lowEnd.2) (lt_iff_lt_of_le_iff_le highEnd.1)

-----------------------------------------------------------------------------------------
-- Grids
-----------------------------------------------------------------------------------------

/-- What is found on a grid rounds to the magnitude. -/
theorem onGrid?_attracts (positive : 0 < x.significand) {d : Scaled}
    (found : x.onGrid? place = some d)
    : x.Attracts d.value := by
  simp only [onGrid?] at found
  split at found
  next chosen =>
    cases found
    exact (readsBack_iff positive _).mp (Bool.and_eq_true_iff.mp chosen).1
  next =>
    split at found
    next up =>
      cases found
      exact (readsBack_iff positive _).mp up
    next => cases found

/-- What is less than half of a place above the magnitude rounds to it. -/
theorem attracts_of_le {v : ℚ} (least : x.value ≤ v) (most : v < x.value + 2 ^ x.exponent / 2)
    : x.Attracts v := by
  have unit : (0 : ℚ) < 2 ^ x.exponent := by positivity
  have low : x.significand ≤ v / 2 ^ x.exponent := (le_div_iff₀ unit).mpr least
  have high : v / 2 ^ x.exponent < x.significand + 1 / 2 := by
    rw [div_lt_iff₀ unit, add_mul]
    unfold value at most
    linarith
  have below : 0 < x.below := by
    unfold below
    split <;> norm_num
  unfold Attracts
  split
  · exact ⟨by linarith, high.le⟩
  · exact ⟨by linarith, high⟩

/-- A grid that is finer than half of the last place does not miss the interval: the multiple behind
the magnitude is in it.
-/
theorem isSome_onGrid? (positive : 0 < x.significand) (fine : 10 ^ place < (2 ^ x.exponent / 2 : ℚ))
    : (x.onGrid? place).isSome = true := by
  have unit : (0 : ℚ) < 10 ^ place := by positivity
  have last : (0 : ℚ) < 2 ^ x.exponent := by positivity
  have base : (0 : ℚ) < (x.inUnits place).2 := by exact_mod_cast x.inUnits_pos place
  have same := x.value_eq_inUnits place
  generalize fraction : ((x.inUnits place).1 / (x.inUnits place).2 : ℚ) = size at same
  have floor : ⌊size⌋₊ = (x.inUnits place).1 / (x.inUnits place).2 := by
    rw [← fraction, Nat.floor_div_eq_div]
  have least := Nat.floor_le (a := size) (by rw [← fraction]; positivity)
  have most := Nat.lt_floor_add_one size
  have up : x.readsBack place ((x.inUnits place).1 / (x.inUnits place).2 + 1) = true := by
    rw [readsBack_iff positive, ← floor]
    push_cast
    refine attracts_of_le ?_ ?_
    · rw [same]
      exact mul_le_mul_of_nonneg_right most.le unit.le
    · rw [same, add_mul, one_mul]
      exact add_lt_add_of_le_of_lt (mul_le_mul_of_nonneg_right least unit.le) fine
  simp only [onGrid?, up]
  split <;> rfl

/-- The first decimal that is found rounds to the magnitude, if the last grid does not miss the
interval; by induction on the grids.
-/
theorem firstOnGrid_attracts (positive : 0 < x.significand) {grids : Nat}
    (found : (x.onGrid? (place - grids)).isSome = true)
    : x.Attracts (x.firstOnGrid (grids + 1) place).value := by
  induction grids generalizing place with
  | zero =>
      obtain ⟨d, found⟩ := Option.isSome_iff_exists.mp found
      rw [Nat.cast_zero, sub_zero] at found
      rw [firstOnGrid, found]
      exact onGrid?_attracts positive found
  | succ grids ih =>
      rw [firstOnGrid]
      cases here : x.onGrid? place with
      | some d => exact onGrid?_attracts positive here
      | none => exact ih (by rwa [sub_sub, add_comm 1, ← Nat.cast_succ])

/-- The shortest decimal of a double rounds to it: the last grid has twenty places fewer than the
magnitude, more than a double has.
-/
theorem IsDouble.shortest_attracts (double : x.IsDouble) (finite : x.exponent ≤ 971)
    : x.Attracts x.shortest.value := by
  have places : x.significand.log2 < 53 :=
    (Nat.log2_lt (Nat.ne_of_gt double.positive)).mpr double.short
  have lowest := double.least
  rw [shortest, if_neg (Nat.ne_of_gt double.positive)]
  refine firstOnGrid_attracts double.positive (isSome_onGrid? double.positive ?_)
  have fine : (10 : ℚ) ^ (x.ceilingPlace - 21) ≤ 2 ^ (x.exponent - 2) := by
    apply ten_zpow_le_two_zpow <;> unfold ceilingPlace <;> omega
  have unit : (0 : ℚ) < 2 ^ x.exponent := by positivity
  rw [zpow_sub₀ two_ne_zero] at fine
  norm_num at fine ⊢
  linarith

end Binary

end RangeTuner.Decimal
