import Mathlib
import RangeTuner.Json.Reader

/-! Numbers in JSON texts. Whole numbers are written in digits without leading zeros, behind a minus
where they are negative. Main statements: a number that is read has only characters of one, and
whole numbers of sixty-four bits are read back from what they are written as.
-/

namespace RangeTuner.Decimal

/-- Digits are read as the number that they are written from. -/
theorem value_digits (n : Nat) : value (digits n) = n :=
  Nat.ofDigitChars_ten_toDigits

theorem isDigit_of_mem_digits {n : Nat} : ∀ c ∈ digits n, c.isDigit = true :=
  fun _ member => Nat.isDigit_of_mem_toDigits (by decide) (by decide) member

/-- Only zero starts with the digit zero, by induction on the number. -/
theorem head?_digits_ne {n : Nat} (positive : n ≠ 0) : (digits n).head? ≠ some '0' := by
  induction n using Nat.strongRecOn with
  | ind n ih =>
      by_cases small : n < 10
      · rw [digits, Nat.toDigits_of_lt_base small]
        interval_cases n <;> simp_all [Nat.digitChar]
      · have shorter := ih (n / 10) (by omega) (by omega)
        rw [digits, Nat.toDigits_of_base_le (by decide) (by omega),
          List.head?_append_of_ne_nil _ Nat.toDigits_ne_nil]
        exact shorter

theorem digits_ne_minus (n : Nat) (s : List Char) : digits n ≠ '-' :: s := by
  intro same
  have minus := isDigit_of_mem_digits '-' (same ▸ List.mem_cons_self)
  simp at minus

end RangeTuner.Decimal

namespace RangeTuner.Json

open RangeTuner.Decimal

/-- Digits without a leading zero are a number, with and without a minus. -/
theorem literal?_digits (n : Nat)
    : literal? (digits n) = some ⟨false, digits n, [], 0⟩
      ∧ literal? ('-' :: digits n) = some ⟨true, digits n, [], 0⟩ := by
  have whole : (digits n).takeWhile Char.isDigit = digits n
      ∧ (digits n).dropWhile Char.isDigit = [] := by
    constructor
    · exact List.takeWhile_eq_self_iff.mpr isDigit_of_mem_digits
    · exact List.dropWhile_eq_nil_iff.mpr isDigit_of_mem_digits
  have filled : digits n ≠ [] := Nat.toDigits_ne_nil
  have leading : (digits n).length = 1 ∨ (digits n).head? ≠ some '0' := by
    by_cases zero : n = 0
    · subst zero
      exact .inl rfl
    · exact .inr (head?_digits_ne zero)
  have unsigned : splitMinus (digits n) = (false, digits n) := by
    unfold splitMinus
    split
    next same => exact absurd same (digits_ne_minus n _)
    next => rfl
  have signed : splitMinus ('-' :: digits n) = (true, digits n) := rfl
  have ends : fraction? [] = some ([], []) ∧ exponent? [] = some 0 := ⟨rfl, rfl⟩
  constructor
  · simp [literal?, unsigned, whole, filled, leading, ends]
  · simp [literal?, signed, whole, filled, leading, ends]

theorem toList_toString (n : Nat) : (toString n).toList = digits n := by
  rw [Nat.toString_eq_repr, Nat.toList_repr, digits]

theorem toList_toString_int (n : Int)
    : (toString n).toList = if 0 ≤ n then digits n.toNat else '-' :: digits (-n).toNat := by
  rw [Int.toString_eq_repr, Int.repr_eq_if]
  split
  · rw [Nat.toList_repr, digits]
  · rw [String.toList_append, Nat.toList_repr, digits]
    rfl

/-- A whole number that is not negative is read back. -/
theorem int?_ofNat (n : Nat) : (ofNat n).int? = some n := by
  have filled : digits n ≠ [] := Nat.toDigits_ne_nil
  simp only [ofNat, int?, toList_toString]
  split
  next same => exact absurd same (digits_ne_minus n _)
  next => simp [List.all_eq_true.mpr isDigit_of_mem_digits, filled, value_digits]

/-- A whole number is read back. -/
theorem int?_ofInt (n : Int) : (ofInt n).int? = some n := by
  have filled : ∀ n, digits n ≠ [] := fun n => Nat.toDigits_ne_nil
  have all : ∀ n, (digits n).all Char.isDigit = true :=
    fun n => List.all_eq_true.mpr isDigit_of_mem_digits
  simp only [ofInt, int?, toList_toString_int]
  by_cases positive : 0 ≤ n
  · rw [if_pos positive]
    split
    next same => exact absurd same (digits_ne_minus _ _)
    next => simp [all, filled, value_digits, positive]
  · have size : ((-n).toNat : Int) = -n := Int.toNat_of_nonneg (by omega)
    have nonzero : (-n).toNat ≠ 0 := by omega
    rw [if_neg positive]
    simp [all, filled, value_digits, nonzero, size]

/-- A number that is not negative and has sixty-four bits is read back. -/
theorem nat?_ofNat {n : Nat} (held : n < 18446744073709551616) : (ofNat n).nat? = some n := by
  have bound : 0 ≤ (n : Int) ∧ (n : Int) < 18446744073709551616 := by omega
  have whole : (n : Int).toNat = n := Int.toNat_natCast n
  have read : (ofNat n).int? = some (n : Int) := int?_ofNat n
  rw [nat?, read, Option.bind_eq_bind, Option.bind_some, if_pos bound, whole]

theorem word?_ofWord (w : UInt64) : (ofWord w).word? = some w := by
  have held : w.toNat < 18446744073709551616 := w.toNat_lt
  rw [ofWord, word?, nat?_ofNat held, Option.map_some, Nat.toUInt64_eq, UInt64.ofNat_toNat]

theorem signed?_ofInt {n : Int} (held : -9223372036854775808 ≤ n ∧ n < 9223372036854775808)
    : (ofInt n).signed? = some n := by
  rw [signed?, int?_ofInt, Option.bind_eq_bind, Option.bind_some, if_pos held]

theorem isBare_of_isDigit {c : Char} (digit : c.isDigit = true) : isBare c = true := by
  simp [isBare, Char.isAlphanum, digit]

theorem forall_isBare_of_digits {s : List Char}
    (rest : ∀ c ∈ s.dropWhile Char.isDigit, isBare c = true)
    : ∀ c ∈ s, isBare c = true := by
  intro c member
  rw [← List.takeWhile_append_dropWhile (p := Char.isDigit) (l := s)] at member
  rcases List.mem_append.mp member with digit | later
  · exact isBare_of_isDigit (List.all_eq_true.mp List.all_takeWhile c digit)
  · exact rest c later

/-- An exponent has only characters of a number. -/
theorem isBare_of_exponent? {s : List Char} {n : Int} (read : exponent? s = some n)
    : ∀ c ∈ s, isBare c = true := by
  cases s with
  | nil => simp
  | cons mark s =>
      simp only [exponent?] at read
      split at read
      next power =>
        simp only [Bool.and_eq_true, Bool.or_eq_true, decide_eq_true_eq] at power
        obtain ⟨⟨isMark, -⟩, all⟩ := power
        have digits : ∀ c ∈ (splitSign s).2, isBare c = true :=
          fun c member => isBare_of_isDigit (List.all_eq_true.mp all c member)
        refine List.forall_mem_cons.mpr ⟨by rcases isMark with rfl | rfl <;> decide, ?_⟩
        unfold splitSign at digits
        split at digits
        · exact List.forall_mem_cons.mpr ⟨by decide, digits⟩
        · exact List.forall_mem_cons.mpr ⟨by decide, digits⟩
        · exact digits
      next => cases read

/-- In front of characters of a number, a fraction has only such characters. -/
theorem isBare_of_fraction? {s fraction rest : List Char}
    (read : fraction? s = some (fraction, rest)) (bare : ∀ c ∈ rest, isBare c = true)
    : ∀ c ∈ s, isBare c = true := by
  unfold fraction? at read
  split at read
  next s =>
    simp only at read
    split at read
    · cases read
    · obtain ⟨rfl, rfl⟩ := Prod.mk.inj (Option.some.inj read)
      exact List.forall_mem_cons.mpr ⟨by decide, forall_isBare_of_digits bare⟩
  next =>
    obtain ⟨rfl, rfl⟩ := Prod.mk.inj (Option.some.inj read)
    exact bare

/-- Every character of a number is one of a word or a number. -/
theorem isBare_of_literal? {text : List Char} (number : (literal? text).isSome = true)
    : ∀ c ∈ text, isBare c = true := by
  obtain ⟨parts, number⟩ := Option.isSome_iff_exists.mp number
  simp only [literal?, Option.bind_eq_bind, Option.bind_eq_some_iff] at number
  obtain ⟨-, -, ⟨fraction, rest⟩, point, n, power, -⟩ := number
  have unsigned : ∀ c ∈ (splitMinus text).2, isBare c = true :=
    forall_isBare_of_digits (isBare_of_fraction? point (isBare_of_exponent? power))
  unfold splitMinus at unsigned
  split at unsigned
  · exact List.forall_mem_cons.mpr ⟨by decide, unsigned⟩
  · exact unsigned

end RangeTuner.Json
