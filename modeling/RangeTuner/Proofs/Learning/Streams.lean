import RangeTuner.Learning.Bank

/-! When two streams of a seed start in one state. A stream is mixed into its seed as a multiple of
an odd constant, and multiplying by such a constant can be undone, so streams are mixed in apart.
Two things bring them together again: the stream whose number wraps around to zero mixes in
nothing, and the state zero is replaced by that of another stream. Main statement: exactly one pair
of streams of every seed starts in one state, and rows are held out by the stream that they were
drawn from.
-/

namespace RangeTuner.Learning.Generator

/-- What undoes a multiplication by the constant that streams are set apart with. -/
def unspread : UInt64 :=
  0xf1de83e19937733d

/-- The stream that mixes a word into its seed. -/
def streamOf (mixed : UInt64) : UInt64 :=
  mixed * unspread - 1

/-- A word is mixed in by one stream, since multiplying by the constant can be undone. -/
theorem succ_mul_spread_eq_iff {stream mixed : UInt64}
    : (stream + 1) * spread = mixed ↔ stream = streamOf mixed := by
  have undone : spread * unspread = 1 := by decide
  have undone' : unspread * spread = 1 := by decide
  constructor
  · rintro rfl
    rw [streamOf, UInt64.mul_assoc, undone, UInt64.mul_one, UInt64.add_sub_cancel]
  · rintro rfl
    rw [streamOf, UInt64.sub_add_cancel, UInt64.mul_assoc, undone', UInt64.mul_one]

/-- Different words are mixed in by different streams. -/
theorem streamOf_inj {mixed other : UInt64}
    : streamOf mixed = streamOf other ↔ mixed = other := by
  rw [← succ_mul_spread_eq_iff, succ_mul_spread_eq_iff.mpr rfl]

/-- The streams that mix in nothing and the constant itself. -/
theorem streamOf_zero
    : streamOf 0 = Holdout.stream := by
  decide

theorem streamOf_spread
    : streamOf spread = 0 := by
  decide

/-- Seeds start in one state where they are the same, or where one is zero and the other is what
stands in for zero.
-/
theorem ofSeed_eq_ofSeed_iff {seed other : UInt64}
    : ofSeed seed = ofSeed other
      ↔ seed = other ∨ (seed = 0 ∧ other = spread) ∨ (seed = spread ∧ other = 0) := by
  have positive : spread ≠ 0 := by decide
  by_cases zero : seed = 0 <;> by_cases otherZero : other = 0 <;>
    simp [ofSeed, zero, otherZero, positive.symm, eq_comm]

/-- A word that is mixed into a seed makes another word of it where it is their difference. -/
theorem xor_eq_iff {seed mixed word : UInt64}
    : seed ^^^ mixed = word ↔ mixed = seed ^^^ word := by
  have cancelled : seed ^^^ (seed ^^^ word) = word := by
    rw [← UInt64.xor_assoc, UInt64.xor_self, UInt64.zero_xor]
  rw [← UInt64.xor_right_inj (a := mixed) seed, cancelled]

/-- Each word is made of a seed by one stream. -/
theorem mixed_eq_iff {seed stream word : UInt64}
    : seed ^^^ ((stream + 1) * spread) = word ↔ stream = streamOf (seed ^^^ word) := by
  rw [xor_eq_iff, succ_mul_spread_eq_iff]

/-- Streams make different words of a seed. -/
theorem mixed_inj {seed stream other : UInt64}
    : seed ^^^ ((stream + 1) * spread) = seed ^^^ ((other + 1) * spread) ↔ stream = other := by
  rw [UInt64.xor_right_inj, succ_mul_spread_eq_iff, ← succ_mul_spread_eq_iff.mp rfl]

/-- Two streams of a seed start in one state where one makes zero of the seed and the other makes
of it what stands in for zero.
-/
theorem ofStream_eq_ofStream_iff {seed stream other : UInt64}
    : ofStream seed stream = ofStream seed other
      ↔ stream = other
        ∨ (stream = streamOf seed ∧ other = streamOf (seed ^^^ spread))
        ∨ (stream = streamOf (seed ^^^ spread) ∧ other = streamOf seed) := by
  rw [ofStream, ofStream, ofSeed_eq_ofSeed_iff, mixed_inj]
  simp only [mixed_eq_iff, UInt64.xor_zero]

/-- A stream starts in the state of its seed where it mixes in nothing, or where the seed and what
stands in for zero are exchanged.
-/
theorem ofStream_eq_ofSeed_iff {seed stream : UInt64}
    : ofStream seed stream = ofSeed seed
      ↔ stream = Holdout.stream ∨ (stream = 0 ∧ (seed = 0 ∨ seed = spread)) := by
  simp only [ofStream, ofSeed_eq_ofSeed_iff, mixed_eq_iff, UInt64.xor_self, streamOf_zero]
  refine or_congr_right ?_
  constructor
  · rintro (⟨from_zero, rfl⟩ | ⟨from_spread, rfl⟩)
    · exact ⟨by simpa [streamOf_spread] using from_zero, .inr rfl⟩
    · exact ⟨by simpa [streamOf_spread] using from_spread, .inl rfl⟩
  · rintro ⟨rfl, rfl | rfl⟩
    · exact .inr ⟨by simp [streamOf_spread], rfl⟩
    · exact .inl ⟨by simp [streamOf_spread], rfl⟩

/-- Main statement: of the streams of a seed exactly two start in one state, and those that start
in the state of the seed itself are the one that rows are held out by, whatever the seed, and for
two seeds the first one. So the rows of a dataset are held out by the very stream that they were
drawn from.
-/
theorem streams_apart_but_one_pair (seed : UInt64)
    : streamOf seed ≠ streamOf (seed ^^^ spread)
      ∧ (∀ stream other, ofStream seed stream = ofStream seed other
        ↔ stream = other
          ∨ (stream = streamOf seed ∧ other = streamOf (seed ^^^ spread))
          ∨ (stream = streamOf (seed ^^^ spread) ∧ other = streamOf seed))
      ∧ (∀ stream, ofStream seed stream = ofSeed seed
        ↔ stream = Holdout.stream ∨ (stream = 0 ∧ (seed = 0 ∨ seed = spread)))
      ∧ ofStream seed Holdout.stream = ofSeed seed := by
  refine ⟨?_, fun _ _ => ofStream_eq_ofStream_iff, fun _ => ofStream_eq_ofSeed_iff,
    ofStream_eq_ofSeed_iff.mpr (.inl rfl)⟩
  rw [Ne, streamOf_inj, ← xor_eq_iff, UInt64.xor_self]
  decide

/-- The stream that rows are held out by, and two neighbouring streams, of one seed. -/
theorem streams_of_42_meet
    : ofStream 42 Holdout.stream = ofSeed 42
      ∧ ofStream 42 12574510868464199681 = ofStream 42 12574510868464199682 := by
  decide

end RangeTuner.Learning.Generator
