import RangeTuner.Decimal.Notation

/-! The characters of numbers that are written with a set number of decimal places: one of the words
for what is not finite, or digits, a sign and a point.
-/

namespace RangeTuner.Decimal

/-- A character of a finite number: a digit, a sign or a point. -/
def IsFigure (c : Char) : Prop :=
  c.isDigit = true ∨ c = '-' ∨ c = '.'

theorem isFigure_of_mem_digits {c : Char} {n : Nat} (member : c ∈ digits n)
    : IsFigure c :=
  .inl (Nat.isDigit_of_mem_toDigits (by decide) (by decide) member)

theorem isFigure_of_mem_withPoint {ds : List Char} {places : Nat} {c : Char}
    (figures : ∀ c ∈ ds, IsFigure c) (member : c ∈ withPoint ds places)
    : IsFigure c := by
  have padded : ∀ c ∈ padStart (places + 1) '0' ds, IsFigure c := by
    intro c member
    rcases List.mem_append.mp member with filler | digit
    · rw [List.eq_of_mem_replicate filler]
      exact .inl rfl
    · exact figures c digit
  unfold withPoint at member
  split at member
  · exact figures c member
  · rcases List.mem_append.mp member with whole | fraction
    · exact padded c (List.mem_of_mem_take whole)
    · rcases List.mem_cons.mp fraction with rfl | fraction
      · exact .inr (.inr rfl)
      · exact padded c (List.mem_of_mem_drop fraction)

/-- The words for numbers that are not finite. -/
def notFinite : List (List Char) :=
  ["NaN".toList, "inf".toList, "-inf".toList]

/-- A number is written as one of the words or in figures. -/
theorem fixed_cases (places : Nat) (x : Float)
    : (fixed places x).toList ∈ notFinite ∨ ∀ c ∈ (fixed places x).toList, IsFigure c := by
  rw [fixed, String.toList_ofList]
  unfold signed
  split
  next => exact .inl (by decide)
  next negative _ => cases negative <;> exact .inl (by decide)
  next negative m _ =>
    have magnitude : ∀ c ∈ m.fixed places, IsFigure c :=
      fun c => isFigure_of_mem_withPoint fun c => isFigure_of_mem_digits
    right
    cases negative
    · exact magnitude
    · exact List.forall_mem_cons.mpr ⟨.inr (.inl rfl), magnitude⟩

/-- A character that is no figure and stands in none of the words is not in a number. -/
theorem not_mem_fixed {c : Char} (plain : ¬ IsFigure c) (apart : ∀ word ∈ notFinite, c ∉ word)
    (places : Nat) (x : Float)
    : c ∉ (fixed places x).toList := by
  rcases fixed_cases places x with word | figures
  · exact apart _ word
  · exact fun member => plain (figures c member)

end RangeTuner.Decimal
