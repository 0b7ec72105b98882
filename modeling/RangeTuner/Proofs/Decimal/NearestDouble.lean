import RangeTuner.Decimal.Reading
import RangeTuner.Proofs.Decimal.CorrectRounding

/-! Decimals that are read as the nearest double. A decimal is a product or a quotient of whole
numbers, of which all places are known before it is rounded. Main statement: a decimal in the
interval of those that round to a double is read as the magnitude of it.
-/

namespace RangeTuner.Decimal

open Float.Model (Format UnpackedFloat totalExponent)
open Float.Model.UnpackedFloat

variable {x : Binary} {m n : Nat} {e f : Int}

-----------------------------------------------------------------------------------------
-- Products and quotients
-----------------------------------------------------------------------------------------

theorem tells_exact (m : Nat)
    : Tells (.ofMantissaAndAccuracy m .exact) m :=
  rfl

/-- A quotient of whole numbers, with what its remainder tells. -/
theorem tells_quotient (m : Nat) {n : Nat} (positive : 0 < n)
    : Tells (.ofMantissaAndAccuracy (m / n) (accuracyOfFraction (m % n) n)) (m / n : ℚ) := by
  have unit : (0 : ℚ) < n := by exact_mod_cast positive
  have whole : (m : ℚ) = n * (m / n : Nat) + (m % n : Nat) := by
    exact_mod_cast (m.div_add_mod n).symm
  have split : (m / n : ℚ) = (m / n : Nat) + (m % n : Nat) / n := by
    rw [div_eq_iff unit.ne', add_mul, div_mul_cancel₀ _ unit.ne', mul_comm, ← whole]
  have short : ((m % n : Nat) : ℚ) < n := by exact_mod_cast m.mod_lt positive
  rw [split, accuracyOfFraction]
  generalize m / n = quotient
  generalize m % n = rest at short
  split
  next zero =>
    subst zero
    simp [Tells, ExtendedMantissa.ofMantissaAndAccuracy]
  next filled =>
    have some : (0 : ℚ) < rest := by exact_mod_cast Nat.pos_of_ne_zero filled
    rcases lt_trichotomy (2 * rest) n with less | same | more
    · have less' : (2 * rest : ℚ) < n := by exact_mod_cast less
      have low : (0 : ℚ) < rest / n := div_pos some unit
      have high : (rest / n : ℚ) < 1 / 2 := by rw [div_lt_div_iff₀ unit two_pos]; linarith
      rw [Nat.compare_eq_lt.mpr less]
      exact ⟨lt_add_of_pos_right _ low,
        by simpa [ExtendedMantissa.ofMantissaAndAccuracy] using high⟩
    · have half : (rest / n : ℚ) = 1 / 2 := by
        have same : (2 * rest : ℚ) = n := by exact_mod_cast same
        rw [div_eq_div_iff unit.ne' two_ne_zero]
        linarith
      rw [Nat.compare_eq_eq.mpr same, half]
      rfl
    · have more' : (n : ℚ) < 2 * rest := by exact_mod_cast more
      have low : 1 / 2 < (rest / n : ℚ) := by rw [div_lt_div_iff₀ two_pos unit]; linarith
      have high : (rest / n : ℚ) < 1 := (div_lt_one unit).mpr short
      rw [Nat.compare_eq_gt.mpr more]
      exact ⟨by simpa [ExtendedMantissa.ofMantissaAndAccuracy] using low,
        by simpa [ExtendedMantissa.ofMantissaAndAccuracy] using high⟩

/-- A product with all its places is rounded to the double that attracts it. -/
theorem mul_of_attracts (double : x.IsDouble) (positive : 0 < m) (positive' : 0 < n)
    (full : 2 ^ 52 ≤ m) (attracts : x.Attracts (m * 2 ^ e * (n * 2 ^ f)))
    : UnpackedFloat.mul .binary64 (.finite .positive m e positive) (.finite .positive n f positive')
      = .finite .positive x.significand x.exponent double.positive := by
  have places : 52 ≤ (m * n).log2 :=
    (Nat.le_log2 (by positivity)).mpr (full.trans (Nat.le_mul_of_pos_right m positive'))
  refine roundWithAccuracy_of_attracts double (tells_exact (m * n)) (by omega) ?_
  convert attracts using 1
  rw [zpow_add₀ two_ne_zero]
  push_cast
  ring

/-- A quotient is rounded to the double that attracts it: it has as many places as are needed. -/
theorem div_of_attracts (double : x.IsDouble) (positive : 0 < m) (positive' : 0 < n)
    (attracts : x.Attracts (m * 2 ^ e / (n * 2 ^ f)))
    : UnpackedFloat.div .binary64 (.finite .positive m e positive) (.finite .positive n f positive')
      = .finite .positive x.significand x.exponent double.positive := by
  have target := targetExponent_eq (totalExponent m e - totalExponent n f)
  simp only [UnpackedFloat.div, divCore, target]
  generalize place : min (e - f) (max (totalExponent m e - totalExponent n f - 53) (-1074)) = place'
  obtain ⟨places, shift⟩ := Int.le.dest (show place' ≤ e - f by omega)
  have amount : (e - f - place').toNat = places := by omega
  rw [amount]
  refine roundWithAccuracy_of_attracts double (tells_quotient (m <<< places) positive') ?_ ?_
  · rcases le_or_gt place' (-1074) with low | high
    · omega
    · have enough : 2 ^ 52 ≤ (m <<< places) / n := by
        have least : 2 ^ m.log2 ≤ m := Nat.log2_self_le (Nat.ne_of_gt positive)
        have most : n ≤ 2 ^ (n.log2 + 1) := Nat.lt_log2_self.le
        simp only [totalExponent] at place
        rw [Nat.le_div_iff_mul_le positive', Nat.shiftLeft_eq]
        calc 2 ^ 52 * n
            ≤ 2 ^ 52 * 2 ^ (n.log2 + 1) := Nat.mul_le_mul_left _ most
          _ ≤ 2 ^ m.log2 * 2 ^ places := by
              rw [← Nat.pow_add, ← Nat.pow_add]
              exact Nat.pow_le_pow_right two_pos (by omega)
          _ ≤ m * 2 ^ places := Nat.mul_le_mul_right _ least
      have full := (Nat.le_log2 (by have := Nat.two_pow_pos 52; omega)).mpr enough
      omega
  · convert attracts using 1
    rw [Nat.shiftLeft_eq, show e = place' + places + f by omega, zpow_add₀ two_ne_zero,
      zpow_add₀ two_ne_zero, zpow_natCast]
    have unit : (n : ℚ) ≠ 0 := by positivity
    push_cast
    field_simp

-----------------------------------------------------------------------------------------
-- Decimals as products and quotients
-----------------------------------------------------------------------------------------

/-- The double of a magnitude that is one. -/
def Binary.IsDouble.toFloat (double : x.IsDouble) : Float :=
  ⟨.pack (.finite .positive x.significand x.exponent double.positive)⟩

/-- A decimal is computed with all its places, unless its exponent is far outside of the range of
doubles.
-/
theorem ofScientific_of_attracts (double : x.IsDouble) (positive : m ≠ 0) (high : e ≤ 2 ^ 11)
    (low : -(2 ^ 11 + m.log2) ≤ e) (attracts : x.Attracts (m * 10 ^ e))
    : UnpackedFloat.ofScientific .binary64 m e
      = .finite .positive x.significand x.exponent double.positive := by
  rw [UnpackedFloat.ofScientific, dif_neg positive, if_neg (not_lt.mpr high),
    if_neg (not_lt.mpr low)]
  split
  next whole =>
    obtain ⟨places, rfl⟩ := Int.eq_ofNat_of_zero_le whole
    have full : 2 ^ 52 ≤ m <<< 53 := by
      rw [Nat.shiftLeft_eq]
      omega
    refine mul_of_attracts double _ _ full ?_
    convert attracts using 1
    rw [Nat.shiftLeft_eq]
    push_cast
    rw [zpow_neg, zpow_natCast]
    field_simp
    simp
  next =>
    obtain ⟨places, rfl⟩ := Int.exists_eq_neg_ofNat (show e ≤ 0 by omega)
    refine div_of_attracts double _ _ ?_
    convert attracts using 1
    simp [div_eq_mul_inv]

/-- Whether an unpacked double is a power of ten. -/
def isTenPower (k : Nat) : UnpackedFloat → Bool
  | .finite .positive m e _ => m * 2 ^ e.toNat == 10 ^ k * 2 ^ (-e).toNat
  | _ => false

/-- The powers of ten that are kept as doubles. -/
theorem isTenPower_kept
    : ∀ k : Fin Float.exactlyRepresentablePowersOfTen.size,
      isTenPower k Float.exactlyRepresentablePowersOfTen[k].toModel.unpack = true := by
  decide +kernel

theorem exists_of_isTenPower {k : Nat} {y : UnpackedFloat} (power : isTenPower k y = true)
    : ∃ m e positive, y = .finite .positive m e positive ∧ (m * 2 ^ e : ℚ) = 10 ^ k := by
  unfold isTenPower at power
  split at power
  next m e positive =>
    refine ⟨m, e, positive, rfl, ?_⟩
    have same : (m * 2 ^ e.toNat : ℚ) = 10 ^ k * 2 ^ (-e).toNat := by
      exact_mod_cast beq_iff_eq.mp power
    rcases e.le_total 0 with negative | whole
    · obtain ⟨places, rfl⟩ := Int.exists_eq_neg_ofNat negative
      simp only [Int.toNat_neg_natCast, pow_zero, mul_one, neg_neg, Int.toNat_natCast] at same
      rw [same, zpow_neg, zpow_natCast]
      field_simp
    · obtain ⟨places, rfl⟩ := Int.eq_ofNat_of_zero_le whole
      simpa using same
  next => cases power

/-- A whole number below `2 ^ 53` is a double itself, which has fifty-three places. -/
theorem exists_unpack_toFloat (positive : 0 < m) (small : m < 2 ^ 53)
    : ∃ p f positive', m.toUInt64.toFloat.toModel.unpack = .finite .positive p f positive'
        ∧ 2 ^ 52 ≤ p ∧ (p * 2 ^ f : ℚ) = m := by
  have word : m.toUInt64.toNat = m := by
    rw [Nat.toUInt64_eq, UInt64.toNat_ofNat_of_lt']
    exact small.trans (by decide)
  have unpacked := unpack_toFloat (k := m.toUInt64) (by rwa [word]) (by rwa [word])
  simp only [word] at unpacked
  have places : m.log2 < 53 := (Nat.log2_lt (Nat.ne_of_gt positive)).mpr small
  have filled : m <<< (52 - m.log2) ≠ 0 := Nat.ne_of_gt (Nat.shiftLeft_pos_iff.mpr positive)
  refine ⟨_, _, _, unpacked, ?_, ?_⟩
  · have log := log2_shiftLeft positive (52 - m.log2)
    exact (Nat.le_log2 filled).mp (by omega)
  · rw [Nat.shiftLeft_eq, show (m.log2 : ℤ) - 52 = -(52 - m.log2 : Nat) by omega, zpow_neg,
      zpow_natCast]
    push_cast
    field_simp

/-- A decimal is read as the double that attracts it. Where its digits and its power of ten are
doubles themselves, it is the product or the quotient of these.
-/
theorem float_ofScientific_of_attracts (double : x.IsDouble) (positive : 0 < m) {s : Bool} {k : Nat}
    (exponent : e = if s then -(k : ℤ) else k) (high : e ≤ 2 ^ 11)
    (low : -(2 ^ 11 + m.log2) ≤ e) (attracts : x.Attracts (m * 10 ^ e))
    : Float.ofScientific m s k = double.toFloat := by
  unfold Float.ofScientific
  split
  next fast =>
    obtain ⟨small, few⟩ := fast
    obtain ⟨p, f, positive, digits, full, value⟩ := exists_unpack_toFloat positive small
    obtain ⟨q, g, positive', power, value'⟩ :=
      exists_of_isTenPower (isTenPower_kept ⟨k, Nat.lt_succ_of_le few⟩)
    rw [← value, exponent] at attracts
    cases s with
    | false =>
        rw [if_neg Bool.false_ne_true, zpow_natCast, ← value'] at attracts
        have computed := mul_of_attracts double positive positive' full attracts
        rw [← digits, ← power] at computed
        exact congrArg (fun y => (⟨.pack y⟩ : Float)) computed
    | true =>
        rw [if_pos rfl, zpow_neg, zpow_natCast, ← value', ← div_eq_mul_inv] at attracts
        have computed := div_of_attracts double positive positive' attracts
        rw [← digits, ← power] at computed
        exact congrArg (fun y => (⟨.pack y⟩ : Float)) computed
  next =>
    have same : (if s then Int.negOfNat k else Int.ofNat k) = e := by
      cases s <;> simp [exponent, Int.negOfNat_eq]
    have computed := ofScientific_of_attracts double (Nat.ne_of_gt positive) high low attracts
    simp only [same]
    exact congrArg (fun y => (⟨.pack y⟩ : Float)) computed

-----------------------------------------------------------------------------------------
-- The range of doubles
-----------------------------------------------------------------------------------------

/-- Powers of two bases are in the order that powers of the bases are in. -/
theorem zpow_le_zpow_of_pow_le_pow {b c : ℚ} {i j : Nat} (one : 1 ≤ b) (positive : 0 ≤ c)
    (le : b ^ i ≤ c ^ j) (some : j ≠ 0) {a p : ℤ} (least : 0 ≤ p) (times : j * a ≤ i * p)
    : b ^ a ≤ c ^ p := by
  obtain ⟨k, rfl⟩ := Int.eq_ofNat_of_zero_le least
  refine le_of_pow_le_pow_left₀ some (by positivity) ?_
  calc (b ^ a) ^ j
      = b ^ (j * a) := by rw [mul_comm, zpow_mul, zpow_natCast]
    _ ≤ b ^ ((i : ℤ) * k) := zpow_le_zpow_right₀ one times
    _ = (b ^ i) ^ k := by rw [zpow_mul, zpow_natCast, zpow_natCast]
    _ ≤ (c ^ j) ^ k := pow_le_pow_left₀ (by positivity) le k
    _ = (c ^ (k : ℤ)) ^ j := by rw [zpow_natCast, ← pow_mul, ← pow_mul, mul_comm]

/-- Twenty-eight decimal places are more than ninety-three binary ones. -/
theorem two_zpow_le_ten_zpow {a p : ℤ} (least : 0 ≤ p) (places : 28 * a ≤ 93 * p)
    : (2 : ℚ) ^ a ≤ 10 ^ p :=
  zpow_le_zpow_of_pow_le_pow (i := 93) (j := 28) one_le_two (by norm_num) (by norm_num)
    (by decide) least places

/-- Three decimal places are fewer than ten binary ones; for negative powers, the bound is the one
of `two_zpow_le_ten_zpow`.
-/
theorem ten_zpow_le_two_zpow {p a : ℤ} (above : 10 * p ≤ 3 * a) (below : 93 * p ≤ 28 * a)
    : (10 : ℚ) ^ p ≤ 2 ^ a := by
  rcases le_total 0 p with whole | negative
  · exact zpow_le_zpow_of_pow_le_pow (i := 3) (j := 10) (by norm_num) two_pos.le (by norm_num)
      (by decide) (by omega) (by omega)
  · have inverse : (2 : ℚ) ^ (-a) ≤ 10 ^ (-p) := two_zpow_le_ten_zpow (by omega) (by omega)
    rwa [zpow_neg, zpow_neg, inv_le_inv₀ (by positivity) (by positivity)] at inverse

/-- What rounds to a double is half of its last place at least. -/
theorem Binary.IsDouble.le_of_attracts {v : ℚ} (double : x.IsDouble) (attracts : x.Attracts v)
    : 2 ^ (x.exponent - 1) ≤ v := by
  have one : (1 : ℚ) ≤ x.significand := by exact_mod_cast double.positive
  have half : 1 / 2 ≤ v / 2 ^ x.exponent := by linarith [attracts.bounds.1, x.below_le]
  rw [le_div_iff₀ (by positivity)] at half
  rw [zpow_sub_one₀ two_ne_zero]
  linarith

theorem Binary.IsDouble.ne_zero_of_attracts (double : x.IsDouble)
    (attracts : x.Attracts (m * 10 ^ e))
    : m ≠ 0 := by
  rintro rfl
  have unit : (0 : ℚ) < 2 ^ (x.exponent - 1) := by positivity
  have least := double.le_of_attracts attracts
  rw [Nat.cast_zero, zero_mul] at least
  exact absurd least (not_le.mpr unit)

/-- A number with so many digits lies between two powers of ten. -/
theorem size_bounds {m : Nat} (positive : m ≠ 0) (e : Int)
    : (10 : ℚ) ^ ((digits m).length + e - 1) ≤ m * 10 ^ e
      ∧ (m * 10 ^ e : ℚ) < 10 ^ ((digits m).length + e) := by
  obtain ⟨k, length⟩ : ∃ k, (digits m).length = k + 1 :=
    Nat.exists_eq_add_one.mpr (List.length_pos_iff.mpr Nat.toDigits_ne_nil)
  have most : m < 10 ^ (k + 1) :=
    (Nat.length_toDigits_le_iff (by decide) (Nat.succ_pos k)).mp length.le
  have least : 10 ^ k ≤ m := by
    rcases Nat.eq_zero_or_pos k with rfl | more
    · exact Nat.pos_of_ne_zero positive
    · refine Nat.le_of_not_lt fun fewer => ?_
      have shorter := (Nat.length_toDigits_le_iff (by decide) more).mpr fewer
      exact absurd (length.symm.le.trans shorter) (Nat.not_succ_le_self k)
  have unit : (0 : ℚ) < 10 ^ e := by positivity
  rw [length]
  constructor
  · rw [show ((k + 1 : Nat) : ℤ) + e - 1 = k + e by omega, zpow_add₀ (by decide), zpow_natCast]
    exact mul_le_mul_of_nonneg_right (by exact_mod_cast least) unit.le
  · rw [zpow_add₀ (by decide), zpow_natCast]
    exact mul_lt_mul_of_pos_right (by exact_mod_cast most) unit

/-- A decimal in the interval of those that round to a double is read as the double. -/
theorem nearest_of_attracts (double : x.IsDouble) (finite : x.exponent ≤ 971)
    (attracts : x.Attracts (m * 10 ^ e))
    : nearest m e = double.toFloat := by
  have least := double.le_of_attracts attracts
  have most := double.lt_of_attracts attracts
  have nonzero := double.ne_zero_of_attracts attracts
  obtain ⟨above, below⟩ := size_bounds nonzero e
  have notSmall : ¬(digits m).length + e < -330 := by
    intro small
    have lowest := double.least
    have apart : (10 : ℚ) ^ ((digits m).length + e) ≤ 2 ^ (x.exponent - 1) :=
      ten_zpow_le_two_zpow (by omega) (by omega)
    linarith
  have notGreat : ¬310 < (digits m).length + e := by
    intro great
    have apart : (2 : ℚ) ^ (x.exponent + 53) ≤ 10 ^ ((digits m).length + e - 1) :=
      two_zpow_le_ten_zpow (by omega) (by omega)
    linarith
  have few : (digits m).length ≤ m.log2 + 1 := by
    refine (Nat.length_toDigits_le_iff (by decide) (Nat.succ_pos _)).mpr ?_
    exact Nat.lt_log2_self.trans_le (Nat.pow_le_pow_left (by decide) _)
  simp only [nearest]
  rw [if_neg (not_or.mpr ⟨nonzero, notSmall⟩), if_neg notGreat]
  split
  next negative =>
    exact float_ofScientific_of_attracts double (Nat.pos_of_ne_zero nonzero)
      (by rw [if_pos rfl]; omega) (by omega) (by omega) attracts
  next whole =>
    exact float_ofScientific_of_attracts double (Nat.pos_of_ne_zero nonzero)
      (by rw [if_neg Bool.false_ne_true]; omega) (by omega) (by omega) attracts

-----------------------------------------------------------------------------------------
-- Doubles and their magnitudes
-----------------------------------------------------------------------------------------

/-- A pattern is put together from its three fields. -/
theorem packComponents_fields (b : BitVec Format.binary64.numBits)
    : packComponents .binary64 (.ofBitVec (unpackSign b)) (unpackExponent b) (unpackMantissa b)
      = b := by
  have sign : ∀ bit : BitVec 1, (Sign.ofBitVec bit).toBitVec = bit := by
    decide
  simp only [packComponents, sign, unpackSign, unpackExponent, unpackMantissa, BitVec.extractLsb]
  ext i bound
  grind

/-- Packing what a pattern says gives the pattern, if it says a finite number. -/
theorem pack_unpack {b : BitVec Format.binary64.numBits}
    (finite : (unpack .binary64 b).isFinite = true)
    : UnpackedFloat.pack .binary64 (unpack .binary64 b) = b := by
  rw [unpack_eq_ofFields] at finite ⊢
  rw [pack_ofFields _ _ _ fun top => ?_, packComponents_fields]
  unfold ofFields at finite
  rw [if_pos top] at finite
  split at finite <;> cases finite

/-- A finite double is packed from what it says. -/
theorem float_pack_unpack {x : Float} (finite : x.isFinite = true)
    : (⟨.pack x.toModel.unpack⟩ : Float) = x := by
  obtain ⟨⟨bits, valid⟩⟩ := x
  have packed : UnpackedFloat.pack .binary64 (unpack .binary64 bits.toBitVec) = bits.toBitVec :=
    pack_unpack finite
  simp only [Float.Model.pack, Float.Model.unpack, packed]

/-- The magnitude of a double that is neither zero nor infinite. -/
theorem isDouble_of_unpack {b : BitVec Format.binary64.numBits} {s : Sign} {positive : 0 < m}
    (unpacked : unpack .binary64 b = .finite s m e positive)
    : Binary.IsDouble ⟨m, e⟩ ∧ e ≤ 971 := by
  have short := mantissa_lt_of_unpack unpacked
  rw [unpack_eq_ofFields] at unpacked
  generalize (unpackMantissa b : BitVec 52) = fraction at unpacked
  generalize (unpackExponent b : BitVec 11) = field at unpacked
  unfold ofFields at unpacked
  split at unpacked
  · split at unpacked <;> cases unpacked
  next notTop =>
  split at unpacked
  next low =>
    subst low
    split at unpacked
    · cases unpacked
    · cases unpacked
      exact ⟨⟨positive, short, .inr rfl, Int.le_refl _⟩, by decide⟩
  next notLow =>
    have bound : field.toNat < 2 ^ 11 := field.isLt
    have least : field.toNat ≠ 0 := fun same => notLow (BitVec.eq_of_toNat_eq same)
    have most : field.toNat ≠ 2047 := fun same => notTop (BitVec.eq_of_toNat_eq same)
    injection unpacked with _ leading exponent
    rw [toNat_leading] at leading
    subst leading exponent
    have lowest : -1074 ≤ (field.toNat : Int) - 1075 := by omega
    exact ⟨⟨positive, short, .inl (Nat.le_add_right _ _), lowest⟩, by omega⟩

/-- The magnitude of a double is the double of its magnitude. -/
theorem toFloat_eq_abs {y : Float} {s : Sign} {positive : 0 < m}
    (unpacked : y.toModel.unpack = .finite s m e positive) (double : Binary.IsDouble ⟨m, e⟩)
    : double.toFloat = y.abs := by
  change (⟨.pack (.finite .positive m e _)⟩ : Float) = ⟨.pack y.toModel.unpack.abs⟩
  rw [unpacked]
  rfl

/-- A finite double is its magnitude with its sign. -/
theorem signed_abs {y : Float} {s : Sign} {positive : 0 < m}
    (unpacked : y.toModel.unpack = .finite s m e positive)
    : (if isNegative s then -y.abs else y.abs) = y := by
  have finite : y.isFinite = true := by
    change y.toModel.unpack.isFinite = true
    rw [unpacked]
    rfl
  have same := float_pack_unpack finite
  rw [unpacked] at same
  cases s with
  | positive =>
      change (⟨.pack y.toModel.unpack.abs⟩ : Float) = y
      rw [unpacked]
      exact same
  | negative =>
      change (⟨.pack y.abs.toModel.unpack.neg⟩ : Float) = y
      rw [unpack_abs, unpacked]
      exact same

end RangeTuner.Decimal
