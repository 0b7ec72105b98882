import RangeTuner.Proofs.Decimal.Comparison

/-! Where doubles stand among all doubles. Numbers are compared by their signs first, then by their
exponents and by their mantissas, so each of them has a rank in a linear order, and only what is no
number has none. Main statement: what is above the greater of two bounds is above the smaller one.
-/

namespace RangeTuner.Decimal

open Float.Model (UnpackedFloat)
open Float.Model.UnpackedFloat

/-- Where a number stands among all numbers, and none for what is no number. -/
def rank? : UnpackedFloat → Option (ℤ ×ₗ ℤ ×ₗ ℤ)
  | .notANumber => none
  | .infinity .negative => some (toLex (-2, toLex (0, 0)))
  | .finite .negative m e _ => some (toLex (-1, toLex (-e, -m)))
  | .zero _ => some (toLex (0, toLex (0, 0)))
  | .finite .positive m e _ => some (toLex (1, toLex (e, m)))
  | .infinity .positive => some (toLex (2, toLex (0, 0)))

theorem compare_toLex (s e m e' m' : ℤ)
    : compare (toLex (s, toLex (e, m))) (toLex (s, toLex (e', m')))
      = (compare e e').then (compare m m') := by
  simp [Prod.Lex.compare_def, compareLex, compareOn]

theorem compare_neg (a b : ℤ)
    : compare (-a) (-b) = (compare a b).swap := by
  rw [← cmp_eq_compare, ← cmp_eq_compare, cmp_swap]
  exact StrictAnti.cmp_map_eq (fun _ _ => neg_lt_neg) a b

theorem compare_natCast (m n : ℕ)
    : compare (m : ℤ) n = compare m n := by
  rw [← cmp_eq_compare, ← cmp_eq_compare]
  exact Int.natCast_strictMono.cmp_map_eq m n

/-- Numbers compare as their ranks do, by cases on both; only where both are finite and of one sign,
more than the signs is compared.
-/
theorem compare_eq_rank (a b : UnpackedFloat)
    : a.compare b = (rank? a).bind fun r => (rank? b).map (compare r) := by
  rcases a with ⟨_ | _⟩ | _ | ⟨_ | _⟩ | ⟨_ | _, m, e, _⟩ <;>
    rcases b with ⟨_ | _⟩ | _ | ⟨_ | _⟩ | ⟨_ | _, m', e', _⟩ <;>
    try rfl
  case finite.negative.finite.negative =>
    simp only [rank?, Option.bind_some, Option.map_some, compare_toLex, compare_neg,
      compare_natCast, ← Ordering.swap_then]
    rfl
  case finite.positive.finite.positive =>
    simp only [rank?, Option.bind_some, Option.map_some, compare_toLex, compare_natCast]
    rfl

/-- One double is below another when its rank is. -/
theorem float_lt_iff_rank {a b : Float}
    : a < b ↔ ∃ r s, rank? a.toModel.unpack = some r ∧ rank? b.toModel.unpack = some s
        ∧ r < s := by
  rw [float_lt_iff, compare_eq_rank]
  cases rank? a.toModel.unpack <;> cases rank? b.toModel.unpack <;> simp [compare_lt_iff_lt]

/-- One double is no greater than another when its rank is not. -/
theorem float_le_iff_rank {a b : Float}
    : a ≤ b ↔ ∃ r s, rank? a.toModel.unpack = some r ∧ rank? b.toModel.unpack = some s
        ∧ r ≤ s := by
  rw [float_le_iff, compare_eq_rank]
  cases rank? a.toModel.unpack <;> cases rank? b.toModel.unpack <;>
    simp [Ordering.isLE_iff_ne_gt, compare_le_iff_le]

/-- What is above the greater of two bounds is above the smaller one. -/
theorem float_lt_of_le_of_lt {a b c : Float} (le : a ≤ b) (lt : b < c)
    : a < c := by
  obtain ⟨r, s, first, second, le⟩ := float_le_iff_rank.mp le
  obtain ⟨s', t, second', third, lt⟩ := float_lt_iff_rank.mp lt
  obtain rfl := Option.some.inj (second.symm.trans second')
  exact float_lt_iff_rank.mpr ⟨r, t, first, third, lt_of_le_of_lt le lt⟩

end RangeTuner.Decimal
