import Mathlib

/-! Words of 64 bits, and what can be undone on them. Multiplying by a factor with an inverse loses
nothing, and neither does mixing a shifted word into itself: a word that such a mixing takes for
another differs from it by bits that a shift leaves in place, and a shift leaves only zero in place.
-/

namespace RangeTuner.Word

variable {word other places : UInt64}

/-- Multiplying by a factor can be undone where something takes it to one. -/
theorem mul_inj_of_undone {factor inverse : UInt64} (undone : factor * inverse = 1)
    (word other : UInt64)
    : word * factor = other * factor ↔ word = other := by
  refine ⟨fun same => ?_, congrArg (· * factor)⟩
  have back := congrArg (· * inverse) same
  simpa only [UInt64.mul_assoc, undone, UInt64.mul_one] using back

/-- A word can be told from itself with an image of it mixed in, where differences are mapped to
differences and only zero is its own image.
-/
theorem xor_image_inj (image : UInt64 → UInt64)
    (additive : ∀ a b, image (a ^^^ b) = image a ^^^ image b)
    (moved : ∀ a, image a = a → a = 0)
    : word ^^^ image word = other ^^^ image other ↔ word = other := by
  refine ⟨fun same => ?_, congrArg fun a => a ^^^ image a⟩
  have stays : (word ^^^ other) ^^^ image (word ^^^ other) = 0 := calc
    (word ^^^ other) ^^^ image (word ^^^ other)
    _ = (word ^^^ image word) ^^^ (other ^^^ image other) := by rw [additive]; ac_rfl
    _ = 0 := by rw [same, UInt64.xor_self]
  exact UInt64.xor_eq_zero_iff.mp (moved _ (UInt64.xor_eq_zero_iff.mp stays).symm)

/-- A shift to the right makes every number less, zero apart. -/
theorem eq_zero_of_shiftRight_eq (shifts : 0 < places.toNat % 64) (stays : word >>> places = word)
    : word = 0 := by
  by_contra some
  have positive : 0 < word.toNat := Nat.pos_of_ne_zero fun zero => some (UInt64.toNat_inj.mp zero)
  have less : word.toNat / 2 ^ (places.toNat % 64) < word.toNat :=
    Nat.div_lt_self positive (Nat.one_lt_two_pow shifts.ne')
  have same := congrArg UInt64.toNat stays
  rw [UInt64.toNat_shiftRight, Nat.shiftRight_eq_div_pow] at same
  omega

/-- A shift to the left that leaves a word in place takes each bit from a lower one, and the lowest
ones from nothing, so all are clear, by strong induction on the place of the bit.
-/
theorem eq_zero_of_shiftLeft_eq (shifts : 0 < places.toNat % 64) (stays : word <<< places = word)
    : word = 0 := by
  have clear : ∀ i, word.toNat.testBit i = false := by
    intro i
    induction i using Nat.strong_induction_on with
    | _ i lower =>
        rw [← stays, UInt64.toNat_shiftLeft, Nat.testBit_mod_two_pow, Nat.testBit_shiftLeft]
        by_cases reached : places.toNat % 64 ≤ i
        · rw [lower _ (by omega)]
          simp
        · simp [reached]
  exact UInt64.toNat_inj.mp (Nat.zero_of_testBit_eq_false clear)

/-- Mixing in the word shifted to the right can be undone. -/
theorem xor_shiftRight_inj (shifts : 0 < places.toNat % 64)
    : word ^^^ word >>> places = other ^^^ other >>> places ↔ word = other :=
  xor_image_inj (· >>> places) (fun _ _ => UInt64.shiftRight_xor) fun _ =>
    eq_zero_of_shiftRight_eq shifts

/-- Mixing in the word shifted to the left can be undone. -/
theorem xor_shiftLeft_inj (shifts : 0 < places.toNat % 64)
    : word ^^^ word <<< places = other ^^^ other <<< places ↔ word = other :=
  xor_image_inj (· <<< places) (fun _ _ => UInt64.shiftLeft_xor) fun _ =>
    eq_zero_of_shiftLeft_eq shifts

end RangeTuner.Word
