import Mathlib

/-! Comparing doubles. An order holds of two doubles as it holds of what their bits say, so laws
of the order are read off the comparison of unpacked numbers. Main statements: what is below
excludes the opposite order, finite doubles are in one order or the other, and a number is no
greater than its magnitude.
-/

namespace RangeTuner.Decimal

open Float.Model (Format UnpackedFloat)
open Float.Model.UnpackedFloat

/-- Exchanging two unpacked numbers turns their comparison around, by cases on both. -/
theorem compare_exchange (a b : UnpackedFloat)
    : a.compare b = (b.compare a).map Ordering.swap := by
  cases a with
  | notANumber => cases b <;> rfl
  | infinity s =>
      cases b with
      | notANumber => cases s <;> rfl
      | infinity s' => cases s <;> cases s' <;> rfl
      | zero s' => cases s <;> rfl
      | finite s' _ _ _ => cases s <;> cases s' <;> rfl
  | zero s =>
      cases b with
      | notANumber => rfl
      | infinity s' => cases s' <;> rfl
      | zero s' => rfl
      | finite s' _ _ _ => cases s' <;> rfl
  | finite s m e _ =>
      cases b with
      | notANumber => cases s <;> rfl
      | infinity s' => cases s <;> cases s' <;> rfl
      | zero s' => cases s <;> rfl
      | finite s' m' e' _ =>
          cases s <;> cases s' <;>
            simp [UnpackedFloat.compare, Ordering.swap_then, Int.compare_swap, Nat.compare_swap]

/-- One double is below another when their unpacked numbers compare so. -/
theorem float_lt_iff {a b : Float}
    : a < b ↔ a.toModel.unpack.compare b.toModel.unpack = some .lt := by
  change decide (a.toModel < b.toModel) = true ↔ _
  rw [decide_eq_true_iff]
  change (a.toModel.unpack.compare b.toModel.unpack == some .lt) = true ↔ _
  exact beq_iff_eq

/-- One double is no greater than another when their unpacked numbers compare so. -/
theorem float_le_iff {a b : Float}
    : a ≤ b ↔ (a.toModel.unpack.compare b.toModel.unpack).any Ordering.isLE = true := by
  change decide (a.toModel ≤ b.toModel) = true ↔ _
  rw [decide_eq_true_iff]
  rfl

/-- A double below another excludes the opposite order, also where one is no number. -/
theorem float_not_le_of_lt {a b : Float} (below : a < b)
    : ¬ b ≤ a := by
  rw [float_le_iff, compare_exchange, float_lt_iff.mp below]
  decide

/-- Finite numbers compare, by cases on both. -/
theorem exists_compare {a b : UnpackedFloat} (finite : a.isFinite = true)
    (finite' : b.isFinite = true)
    : ∃ order, a.compare b = some order := by
  cases a with
  | notANumber | infinity _ => cases finite
  | zero s =>
      cases b with
      | notANumber | infinity _ => cases finite'
      | zero _ => exact ⟨_, rfl⟩
      | finite s' _ _ _ => cases s' <;> exact ⟨_, rfl⟩
  | finite s _ _ _ =>
      cases b with
      | notANumber | infinity _ => cases finite'
      | zero _ => cases s <;> exact ⟨_, rfl⟩
      | finite s' _ _ _ => cases s <;> cases s' <;> exact ⟨_, rfl⟩

/-- Of two finite doubles, the first is no greater than the second unless the second is below it. -/
theorem float_le_iff_not_lt {a b : Float} (finite : a.isFinite = true)
    (finite' : b.isFinite = true)
    : a ≤ b ↔ ¬ b < a := by
  obtain ⟨order, compared⟩ : ∃ order, b.toModel.unpack.compare a.toModel.unpack = some order :=
    exists_compare finite' finite
  rw [float_le_iff, float_lt_iff, compare_exchange, compared]
  cases order <;> decide

-----------------------------------------------------------------------------------------
-- Taking the magnitude loses nothing but the sign
-----------------------------------------------------------------------------------------

/-- A fraction behind its hidden leading one. -/
theorem toNat_leading (m : BitVec 52)
    : (1#1 ++ m).toNat = 2 ^ 52 + m.toNat := by
  rw [BitVec.toNat_append, Nat.shiftLeft_eq, Nat.mul_comm,
    ← Nat.two_pow_add_eq_or_of_lt m.isLt]
  rfl

/-- The number that a sign, eleven bits of exponent and fifty-two bits of fraction say. -/
def ofFields (s : Sign) (e : BitVec 11) (m : BitVec 52) : UnpackedFloat :=
  if e = -1#_ then
    if m = 0#_ then .infinity s else .notANumber
  else if e = 0#_ then
    if nonzero : m = 0#_ then .zero s
    else
      .finite s m.toNat ((e.toNat : Int) - 1075 + 1) (by
        simpa [BitVec.toNat_pos, BitVec.pos_iff_ne_zero] using nonzero)
  else .finite s (1#1 ++ m).toNat ((e.toNat : Int) - 1075) (by rw [toNat_leading]; omega)

/-- Unpacking reads the three fields of a pattern. -/
theorem unpack_eq_ofFields (b : BitVec Format.binary64.numBits)
    : unpack .binary64 b
      = ofFields (.ofBitVec (unpackSign b)) (unpackExponent b) (unpackMantissa b) :=
  rfl

/-- The sign of fields that were put together is the one put in. -/
theorem unpackSign_packComponents {spec : Format} (s : Sign) (e : BitVec spec.exponentBits)
    (m : BitVec spec.mantissaBitsWithoutImplicit)
    : unpackSign (packComponents spec s e m) = s.toBitVec := by
  ext i bound
  obtain rfl : i = 0 := by omega
  simp [unpackSign, packComponents, BitVec.getLsbD_append, BitVec.getLsbD_eq_getElem,
    BitVec.getElem_append]

/-- Fields that were put together say what they say apart. -/
theorem unpack_packComponents (s : Sign) (e : BitVec 11) (m : BitVec 52)
    : unpack .binary64 (packComponents .binary64 s e m) = ofFields s e m := by
  rw [unpack_eq_ofFields, unpackExponent_packComponents, unpackMantissa_packComponents,
    unpackSign_packComponents]
  cases s <;> rfl

/-- The magnitude has the same fields under a positive sign. -/
theorem abs_ofFields (s : Sign) (e : BitVec 11) (m : BitVec 52)
    : (ofFields s e m).abs = ofFields .positive e m := by
  unfold ofFields
  split
  · split <;> rfl
  · split
    · split <;> rfl
    · rfl

/-- Packing what fields say puts them together again, unless they say that it is no number. -/
theorem pack_ofFields (s : Sign) (e : BitVec 11) (m : BitVec 52)
    (number : e = -1#11 → m = 0#52)
    : pack .binary64 (ofFields s e m) = packComponents .binary64 s e m := by
  unfold ofFields
  split
  next top =>
    obtain rfl := number top
    subst top
    rfl
  next notTop =>
  split
  next low =>
    subst low
    split
    next zero => subst zero; rfl
    next nonzero =>
      -- a subnormal number has no leading one, so its fraction has fewer than 53 bits
      have positive : m.toNat ≠ 0 := fun zero => nonzero (BitVec.eq_of_toNat_eq zero)
      have short : m.toNat.log2 < 52 := (Nat.log2_lt positive).mpr m.isLt
      have least : ((0#11).toNat : Int) - 1075 + 1 = -1074 := by decide
      simp only [least, pack]
      rw [if_neg (by decide), if_neg (by simp only [Format.mantissaBits]; omega)]
      simp
  next notLow =>
    have below : e.toNat < 2047 := by
      have bound := e.isLt
      have differs : e.toNat ≠ 2047 := fun same => notTop (BitVec.eq_of_toNat_eq same)
      omega
    have biased
        : ((e.toNat : Int) - 1075 + Format.binary64.exponentBias
            + Format.binary64.mantissaBitsWithoutImplicit).toNat
          = e.toNat := by
      simp [Format.exponentBias]
      omega
    have long : (1#1 ++ m).toNat.log2 = 52 := by
      have bound := m.isLt
      rw [toNat_leading, Nat.log2_eq_iff (by omega)]
      omega
    simp only [pack, biased, long]
    rw [if_neg (by simp only [Nat.not_le]; omega), if_pos (by decide)]
    congr 1
    · simp
    · apply BitVec.eq_of_toNat_eq
      rw [toNat_leading, BitVec.toNat_ofNat, Nat.add_mod_left, Nat.mod_eq_of_lt m.isLt]

/-- Packing and unpacking what fields say changes nothing. -/
theorem unpack_pack_ofFields (s : Sign) (e : BitVec 11) (m : BitVec 52)
    : unpack .binary64 (pack .binary64 (ofFields s e m)) = ofFields s e m := by
  by_cases number : e = -1#11 → m = 0#52
  · rw [pack_ofFields s e m number, unpack_packComponents]
  · obtain ⟨rfl, nonzero⟩ := Classical.not_imp.mp number
    have undefined : ofFields s (-1#11) m = .notANumber := by simp [ofFields, nonzero]
    rw [undefined]
    rfl

/-- The magnitude of what a pattern says survives packing. -/
theorem unpack_pack_abs (b : BitVec Format.binary64.numBits)
    : unpack .binary64 (pack .binary64 (unpack .binary64 b).abs) = (unpack .binary64 b).abs := by
  rw [unpack_eq_ofFields b, abs_ofFields, unpack_pack_ofFields]

/-- The magnitude of a double unpacks to the magnitude. -/
theorem unpack_abs (x : Float)
    : x.abs.toModel.unpack = x.toModel.unpack.abs :=
  unpack_pack_abs x.toModel.toBits.toBitVec

/-- A number is where its magnitude is: below, by cases on its sign and on the other number. -/
theorem compare_of_abs {a b : UnpackedFloat} (small : a.abs.compare b = some .lt)
    : a.compare b = some .lt := by
  cases a with
  | notANumber => exact small
  | infinity s =>
      cases b with
      | infinity s' => cases s' <;> simp [UnpackedFloat.abs, UnpackedFloat.compare] at small
      | notANumber | zero _ | finite _ _ _ _ => cases small
  | zero s =>
      cases b with
      | zero _ => cases small
      | notANumber => cases small
      | infinity s' => cases s' <;> first | rfl | cases small
      | finite s' _ _ _ => cases s' <;> first | rfl | cases small
  | finite s m e _ =>
      cases s with
      | positive => exact small
      | negative =>
          cases b with
          | zero _ => rfl
          | notANumber => cases small
          | infinity s' => cases s' <;> first | rfl | cases small
          | finite s' _ _ _ => cases s' <;> first | rfl | cases small

/-- A number whose magnitude is below a bound is below it. -/
theorem float_lt_of_abs_lt {x bound : Float} (small : x.abs < bound)
    : x < bound := by
  rw [float_lt_iff, unpack_abs] at small
  exact float_lt_iff.mpr (compare_of_abs small)

end RangeTuner.Decimal
