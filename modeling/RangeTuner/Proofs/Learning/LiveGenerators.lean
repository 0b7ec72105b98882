import RangeTuner.Learning.Random
import RangeTuner.Proofs.Words

/-! Generators that never degenerate. No step leads away from the state zero, but none leads there
from another state either, since a step can be undone. Main statement: whatever the seed, the stream
and the count of draws, no state and no drawn word is zero, and generators in different states stay
apart.
-/

namespace RangeTuner.Learning

namespace Generator

variable {g : Generator} {x y : UInt64}

-----------------------------------------------------------------------------------------
-- One draw
-----------------------------------------------------------------------------------------

/-- Each of the three mixings of a step can be undone. -/
theorem stepState_inj
    : stepState x = stepState y ↔ x = y := by
  unfold stepState
  rw [Word.xor_shiftRight_inj (by decide), Word.xor_shiftLeft_inj (by decide),
    Word.xor_shiftRight_inj (by decide)]

/-- Only from zero a step leads to zero. -/
theorem stepState_eq_zero_iff
    : stepState x = 0 ↔ x = 0 :=
  stepState_inj (y := 0)

theorem step_injective
    : Function.Injective step := by
  intro g other same
  have states := stepState_inj.mp (congrArg state same)
  exact congrArg mk states

/-- What undoes the multiplication that makes a word of a state. -/
def unscrambler : UInt64 :=
  0x59071d96d81ecd35

/-- The word zero is drawn in the state zero only, since the factor is odd. -/
theorem output_eq_zero_iff
    : g.output = 0 ↔ g.state = 0 := by
  have undone : 0x2545f4914f6cdd1d * unscrambler = 1 := by decide
  rw [output]
  simpa only [UInt64.zero_mul] using Word.mul_inj_of_undone undone g.state 0

-----------------------------------------------------------------------------------------
-- Where generators start
-----------------------------------------------------------------------------------------

/-- Zero is replaced where a generator is made of a seed. -/
theorem state_ofSeed_ne_zero (seed : UInt64)
    : (ofSeed seed).state ≠ 0 := by
  have positive : spread ≠ 0 := by decide
  rw [ofSeed]
  split
  · exact positive
  · assumption

theorem state_ofStream_ne_zero (seed stream : UInt64)
    : (ofStream seed stream).state ≠ 0 :=
  state_ofSeed_ne_zero _

-----------------------------------------------------------------------------------------
-- Any number of draws
-----------------------------------------------------------------------------------------

/-- Any number of steps leads to zero from zero only, by induction on the steps. -/
theorem state_steps_eq_zero_iff (count : Nat)
    : (step^[count] g).state = 0 ↔ g.state = 0 := by
  induction count with
  | zero => rfl
  | succ count ih => rw [Function.iterate_succ_apply', step, stepState_eq_zero_iff, ih]

/-- Words are drawn in the states behind each step, by induction on their count. -/
theorem run_replicate_word (count : Nat) (g : Generator)
    : (Draw.replicate count Draw.word).run g
      = ((List.range count).map fun i => (step^[i + 1] g).output, step^[count] g) := by
  induction count with
  | zero => rfl
  | succ count ih =>
      rw [Draw.replicate] at ih
      rw [Draw.replicate, List.range_succ, List.mapM_append, StateT.run_bind, ih,
        List.map_append, List.map_singleton, Function.iterate_succ_apply']
      rfl

/-- However many words are drawn, as many as asked for are, none of them is zero, and neither is the
state that is handed on.
-/
def Lasts (g : Generator) : Prop :=
  ∀ count, ∃ drawn final, (Draw.replicate count Draw.word).run g = (drawn, final)
    ∧ drawn.length = count ∧ 0 ∉ drawn ∧ final.state ≠ 0

/-- A generator degenerates in the state zero, and in no other one. -/
theorem lasts_iff
    : g.Lasts ↔ g.state ≠ 0 := by
  constructor
  · intro lasts
    obtain ⟨drawn, final, run, -, -, positive⟩ := lasts 0
    rw [run_replicate_word] at run
    rwa [← (Prod.mk.inj run).2] at positive
  · intro positive count
    refine ⟨_, _, run_replicate_word count g, by simp, fun zero => ?_,
      mt (state_steps_eq_zero_iff count).mp positive⟩
    obtain ⟨i, -, same⟩ := List.mem_map.mp zero
    exact positive ((state_steps_eq_zero_iff (i + 1)).mp (output_eq_zero_iff.mp same))

/-- Main statement: a step can be undone on all states, generators of seeds and of their streams
never reach the state zero or draw the word zero, and two generators are in one state behind equally
many draws only if they started in one.
-/
theorem draws_never_degenerate
    : Function.Injective stepState
      ∧ (∀ seed, (ofSeed seed).Lasts)
      ∧ (∀ seed stream, (ofStream seed stream).Lasts)
      ∧ ∀ (g other : Generator) (count : Nat),
        ((Draw.replicate count Draw.word).run g).2 = ((Draw.replicate count Draw.word).run other).2
          ↔ g = other := by
  refine ⟨fun x y => stepState_inj.mp, fun seed => lasts_iff.mpr (state_ofSeed_ne_zero seed),
    fun seed stream => lasts_iff.mpr (state_ofStream_ne_zero seed stream),
    fun g other count => ?_⟩
  rw [run_replicate_word, run_replicate_word]
  exact (step_injective.iterate count).eq_iff

end Generator

end RangeTuner.Learning
