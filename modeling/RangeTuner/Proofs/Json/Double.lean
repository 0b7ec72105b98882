import RangeTuner.Proofs.Decimal.Shortest
import RangeTuner.Proofs.Decimal.Spelling
import RangeTuner.Proofs.Json.Record

/-! Doubles in JSON texts. A decimal is written with a point, with an exponent or with both, and in
each of these layouts its literal has the value of the decimal. Main statement: every finite double
is read back from what it is written as.
-/

namespace RangeTuner.Decimal

/-- Zeros behind digits are powers of ten. -/
theorem value_append_zeros (ds : List Char) (k : Nat)
    : value (ds ++ List.replicate k '0') = value ds * 10 ^ k := by
  induction k with
  | zero => simp
  | succ k ih =>
      rw [List.replicate_succ', ← List.append_assoc]
      unfold value valueFrom at ih ⊢
      rw [List.foldl_append, ih, Nat.pow_succ]
      simp
      ring

/-- Zeros in front of digits change nothing. -/
theorem value_padStart (width : Nat) (ds : List Char)
    : value (padStart width '0' ds) = value ds := by
  have zeros := value_append_zeros [] (width - ds.length)
  unfold padStart value valueFrom at *
  rw [List.foldl_append, ← List.nil_append (List.replicate _ _), zeros]
  simp

theorem allDigits_zeros (k : Nat)
    : AllDigits (List.replicate k '0') := by
  intro c member
  rw [List.eq_of_mem_replicate member]
  rfl

/-- The magnitude that a literal writes. -/
def Literal.magnitude (l : Literal) : ℚ :=
  value (l.whole ++ l.fraction) * 10 ^ (l.exponent - l.fraction.length)

end RangeTuner.Decimal

namespace RangeTuner.Json

open RangeTuner.Decimal RangeTuner.Text

-----------------------------------------------------------------------------------------
-- Layouts of decimals
-----------------------------------------------------------------------------------------

/-- A text with a minus in front, or without one. -/
def withMinus (negative : Bool) (text : List Char) : List Char :=
  if negative then '-' :: text else text

/-- With and without a minus in front, the text is a literal of this magnitude. -/
def Writes (text : List Char) (v : ℚ) : Prop :=
  ∀ negative, ∃ l, literal? (withMinus negative text) = some l ∧ l.negative = negative
    ∧ l.magnitude = v

/-- A literal is put together from digits without a leading zero, a point and an exponent. -/
theorem writes_append {whole fraction rest behind : List Char} {n : Int} {v : ℚ}
    (digits : AllDigits whole) (filled : whole ≠ [])
    (leading : whole.length = 1 ∨ whole.head? ≠ some '0')
    (ends : ∀ c ∈ rest.head?, c.isDigit = false)
    (point : fraction? rest = some (fraction, behind)) (power : exponent? behind = some n)
    (magnitude : value (whole ++ fraction) * 10 ^ (n - fraction.length) = v)
    : Writes (whole ++ rest) v := by
  intro negative
  obtain ⟨taken, left⟩ := Scanner.span_append digits ends
  have signed : splitMinus (withMinus negative (whole ++ rest)) = (negative, whole ++ rest) := by
    cases negative with
    | true => rfl
    | false =>
        obtain ⟨d, ds, rfl⟩ := List.exists_cons_of_ne_nil filled
        rw [withMinus, if_neg Bool.false_ne_true]
        unfold splitMinus
        split
        next same =>
          obtain ⟨rfl, -⟩ := List.cons.inj same
          exact absurd (digits '-' List.mem_cons_self) (by decide)
        next => rfl
  refine ⟨⟨negative, whole, fraction, n⟩, ?_, rfl, magnitude⟩
  simp [literal?, signed, taken, left, filled, leading, point, power]

/-- A point with at least one digit behind it. -/
theorem fraction?_point {fraction : List Char} (rest : List Char) (digits : AllDigits fraction)
    (filled : fraction ≠ []) (ends : ∀ c ∈ rest.head?, c.isDigit = false)
    : fraction? ('.' :: (fraction ++ rest)) = some (fraction, rest) := by
  obtain ⟨taken, left⟩ := Scanner.span_append digits ends
  simp [fraction?, taken, left, filled]

/-- An exponent is read from the whole number behind its letter. -/
theorem exponent?_toString (n : Int)
    : exponent? ('e' :: (toString n).toList) = some n := by
  have all : ∀ n, (digits n).all Char.isDigit = true :=
    fun n => List.all_eq_true.mpr isDigit_of_mem_digits
  have filled : ∀ n, (digits n).isEmpty = false :=
    fun n => List.isEmpty_eq_false_iff.mpr Nat.toDigits_ne_nil
  rw [toList_toString_int]
  split
  next whole =>
    have unsigned : splitSign (digits n.toNat) = (false, digits n.toNat) := by
      refine splitSign_append .absent fun c first => ?_
      have digit := isDigit_of_mem_digits c (List.mem_of_head? first)
      constructor <;> rintro rfl <;> cases digit
    simp [exponent?, unsigned, all, filled, value_digits, whole]
  next negative =>
    have signed : splitSign ('-' :: digits (-n).toNat) = (true, digits (-n).toNat) := rfl
    have size : ((-n).toNat : Int) = -n := Int.toNat_of_nonneg (by omega)
    simp [exponent?, signed, all, filled, value_digits, size]

variable {d : Scaled}

/-- A whole number is written with a zero behind the point. -/
theorem writes_whole (positive : d.count ≠ 0) (whole : 0 ≤ d.place)
    : Writes (d.plain ++ ['.', '0']) d.value := by
  have digit : AllDigits (digits d.count ++ List.replicate d.place.toNat '0') :=
    List.forall_mem_append.mpr ⟨isDigit_of_mem_digits, allDigits_zeros _⟩
  have filled : digits d.count ≠ [] := Nat.toDigits_ne_nil
  have point : fraction? ['.', '0'] = some (['0'], []) := rfl
  rw [Scaled.plain, if_pos whole]
  refine writes_append digit (by simp [filled]) ?_ (by rintro c ⟨⟩; rfl) point rfl ?_
  · rw [List.head?_append_of_ne_nil _ filled]
    exact .inr (head?_digits_ne positive)
  · obtain ⟨k, place⟩ := Int.eq_ofNat_of_zero_le whole
    have digits : value (digits d.count ++ List.replicate k '0' ++ ['0'])
        = d.count * 10 ^ k * 10 := by
      rw [show ['0'] = List.replicate 1 '0' from rfl, value_append_zeros, value_append_zeros,
        value_digits, pow_one]
    rw [Scaled.value, place, Int.toNat_natCast, digits]
    simp

/-- A decimal with places behind the point is written with zeros in front if it has no others. -/
theorem writes_plain (positive : d.count ≠ 0) (places : d.place < 0)
    : Writes d.plain d.value := by
  obtain ⟨k, place⟩ := Int.exists_eq_neg_ofNat places.le
  have some : k ≠ 0 := by omega
  have all : AllDigits (padStart (k + 1) '0' (digits d.count)) :=
    List.forall_mem_append.mpr ⟨allDigits_zeros _, isDigit_of_mem_digits⟩
  have value := value_padStart (k + 1) (digits d.count)
  have long : k < (padStart (k + 1) '0' (digits d.count)).length := by
    simp [padStart]
    omega
  have leading : (padStart (k + 1) '0' (digits d.count)).length = k + 1
      ∨ (padStart (k + 1) '0' (digits d.count)).head? ≠ Option.some '0' := by
    rcases Nat.le_total (digits d.count).length (k + 1) with short | many
    · left
      simp [padStart]
      omega
    · right
      rw [padStart, Nat.sub_eq_zero_of_le many]
      exact head?_digits_ne positive
  rw [Scaled.plain, if_neg (not_le.mpr places), place, neg_neg, Int.toNat_natCast, withPoint,
    if_neg some]
  dsimp only
  generalize padStart (k + 1) '0' (digits d.count) = padded at all value long leading
  have behind : (padded.drop (padded.length - k)).length = k := by
    rw [List.length_drop]
    omega
  rw [← List.take_append_drop (padded.length - k) padded] at all value long leading
  generalize padded.take (padded.length - k) = whole at all value long leading ⊢
  generalize padded.drop (padded.length - k) = fraction at all value long leading behind ⊢
  rw [List.length_append] at long leading
  obtain ⟨digits, digits'⟩ := List.forall_mem_append.mp all
  have filled : whole ≠ [] := List.ne_nil_of_length_pos (by omega)
  have point := fraction?_point [] digits' (List.ne_nil_of_length_pos (by omega)) (by simp)
  rw [List.append_nil] at point
  refine writes_append digits filled ?_ (by rintro c ⟨⟩; rfl) point rfl ?_
  · refine leading.imp (fun short => by omega) fun digit => ?_
    rwa [List.head?_append_of_ne_nil _ filled] at digit
  · rw [value, value_digits, Scaled.value, place, behind, zero_sub]

/-- A very great or small decimal is written with its first digit alone in front of the point, and
without a point if there is no other digit.
-/
theorem writes_scientific {first : Char} {rest : List Char} (same : digits d.count = first :: rest)
    : Writes
        (first :: ((if rest.isEmpty then [] else '.' :: rest)
          ++ 'e' :: (toString ((digits d.count).length + d.place - 1)).toList))
        d.value := by
  obtain ⟨digit, others⟩ : first.isDigit = true ∧ AllDigits rest :=
    List.forall_mem_cons.mp (same ▸ isDigit_of_mem_digits)
  have value : value (first :: rest) = d.count := by rw [← same, value_digits]
  have power := exponent?_toString ((digits d.count).length + d.place - 1)
  generalize (toString ((digits d.count).length + d.place - 1)).toList = exponent at power
  have letter : ∀ c ∈ ('e' :: exponent).head?, c.isDigit = false := by
    rintro c ⟨⟩
    rfl
  have point : fraction? ((if rest.isEmpty then [] else '.' :: rest) ++ 'e' :: exponent)
      = some (rest, 'e' :: exponent) := by
    cases rest with
    | nil => rfl
    | cons second rest => exact fraction?_point _ others (List.cons_ne_nil _ _) letter
  refine writes_append (List.forall_mem_singleton.mpr digit) (List.cons_ne_nil _ _) (.inl rfl) ?_
    point power ?_
  · cases rest with
    | nil => exact letter
    | cons second rest =>
        rintro c ⟨⟩
        rfl
  · rw [List.singleton_append, value, Scaled.value, same, List.length_cons]
    congr 2
    omega

/-- In each layout, a decimal is a literal of its value. -/
theorem writes_pointed (positive : d.count ≠ 0)
    : Writes d.pointed d.value := by
  simp only [Scaled.pointed]
  split
  next whole => exact writes_whole positive whole.1
  next notWhole =>
  split
  next near => exact writes_plain positive (by omega)
  next =>
  split
  next only same => exact writes_scientific same
  next first rest others same =>
    have scientific := writes_scientific same
    rwa [if_neg (by simpa using others)] at scientific
  next none => exact absurd none Nat.toDigits_ne_nil

-----------------------------------------------------------------------------------------
-- Doubles
-----------------------------------------------------------------------------------------

/-- A finite double is read back from what it is written as. -/
theorem exact_of_isFinite {x : Float} (finite : x.isFinite = true)
    : Exact x := by
  have number := Number.ofFloat_eq x
  cases unpacked : x.toModel.unpack with
  | notANumber =>
      change x.toModel.unpack.isFinite = true at finite
      rw [unpacked] at finite
      cases finite
  | infinity s =>
      change x.toModel.unpack.isFinite = true at finite
      rw [unpacked] at finite
      cases finite
  | zero s =>
      have packed := float_pack_unpack finite
      rw [unpacked] at packed
      subst packed
      cases s <;> decide +kernel
  | finite s m e positive =>
      obtain ⟨double, high⟩ := isDouble_of_unpack unpacked
      have attracts := double.shortest_attracts high
      obtain ⟨l, read, negative, magnitude⟩ :=
        writes_pointed (double.ne_zero_of_attracts attracts) (isNegative s)
      have written : ofFloat x = .number (.ofList (withMinus (isNegative s)
          (Binary.shortest ⟨m, e⟩).pointed)) := by
        rw [unpacked] at number
        simp only [ofFloat, pointed?, number, Number.ofUnpacked, if_neg (Nat.ne_of_gt positive)]
        rfl
      rw [← magnitude] at attracts
      have nearest := nearest_of_attracts double high attracts
      rw [toFloat_eq_abs unpacked] at nearest
      have same : l.toFloat = x := by
        rw [Literal.toFloat, nearest, negative]
        exact signed_abs unpacked
      rw [Exact, written]
      simp [float?, String.toList_ofList, read, same, finite]

end RangeTuner.Json
