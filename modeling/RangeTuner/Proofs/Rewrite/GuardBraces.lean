import Mathlib
import RangeTuner.Proofs.Rewrite.GuardShape

/-! Guards and braces. The block of a guard is read up to the first closing brace, so a block inside
of it is cut in two, and its closing brace is left behind. Main statement: the balance of braces
is kept exactly where the removed guards hold no such block.
-/

namespace RangeTuner.Rewrite

open RangeTuner.Text

-----------------------------------------------------------------------------------------
-- What is removed
-----------------------------------------------------------------------------------------

/-- The texts that comments take the place of, idiom by idiom. -/
def removed : List (Idiom Unit) → List Char → List Char → List (List Char)
  | [], _, _ => []
  | idiom :: rest, comment, text =>
      idiom.lexemes text ++ removed rest comment (idiom.replace (fun _ => comment) text)

/-- The guards that the template for null guards removes. -/
def NullGuards.removed (text : List Char) : List (List Char) :=
  Rewrite.removed idioms comment text

/-- The guards that the template for range guards removes. -/
def RangeGuards.removed (text : List Char) : List (List Char) :=
  Rewrite.removed idioms comment text

variable {idioms : List (Idiom Unit)} {comment : List Char}

/-- The last idioms remove from what the first ones leave, by induction on the first. -/
theorem removed_append (first last : List (Idiom Unit)) (comment text : List Char)
    : removed (first ++ last) comment text
      = removed first comment text ++ removed last comment (replaceAll first comment text) := by
  induction first generalizing text with
  | nil => rfl
  | cons idiom first ih =>
      simp only [List.cons_append, removed, ih, List.append_assoc, replaceAll, List.foldl_cons]

/-- What holds of the hits of every idiom holds of everything removed, by induction on the idioms.
-/
theorem forall_removed {holds : List Char → Prop}
    (hits : ∀ idiom ∈ idioms, ∀ text, ∀ lexeme ∈ idiom.lexemes text, holds lexeme)
    (text : List Char)
    : ∀ lexeme ∈ removed idioms comment text, holds lexeme := by
  induction idioms generalizing text with
  | nil => simp [removed]
  | cons idiom rest ih =>
      intro lexeme member
      rcases List.mem_append.mp member with now | later
      · exact hits idiom List.mem_cons_self text lexeme now
      · exact ih (fun other within => hits other (List.mem_cons_of_mem _ within)) _ lexeme later

/-- The excess that is left is the one of the text without that of everything removed, by induction
on the idioms.
-/
theorem excess_replaceAll (plain : ∀ c ∈ comment, NoBrace c) (text : List Char)
    : excess (replaceAll idioms comment text)
      = excess text - ((removed idioms comment text).map excess).sum := by
  induction idioms generalizing text with
  | nil => simp [replaceAll, removed]
  | cons idiom rest ih =>
      have once := idiom.excess_replace plain text
      have later := ih (idiom.replace (fun _ => comment) text)
      simp only [replaceAll, List.foldl_cons, removed, List.map_append, List.sum_append]
        at later ⊢
      omega

/-- Balance is kept where everything removed has as many opening as closing braces, by induction on
the idioms.
-/
theorem balanced_replaceAll (plain : ∀ c ∈ comment, NoBrace c) {text : List Char}
    (neutral : ∀ lexeme ∈ removed idioms comment text, excess lexeme = 0)
    (balanced : Balanced text)
    : Balanced (replaceAll idioms comment text) := by
  induction idioms generalizing text with
  | nil => exact balanced
  | cons idiom rest ih =>
      have now : ∀ lexeme ∈ idiom.lexemes text, excess lexeme = 0 :=
        fun lexeme member => neutral lexeme (List.mem_append_left _ member)
      have once := idiom.balanced_replace plain now balanced
      exact ih (fun lexeme member => neutral lexeme (List.mem_append_right _ member)) once

/-- Where nothing removed has more closing than opening braces, balance is kept exactly when
everything removed has as many of both.
-/
theorem balanced_replaceAll_iff (plain : ∀ c ∈ comment, NoBrace c) {text : List Char}
    (opens : ∀ lexeme ∈ removed idioms comment text, 0 ≤ excess lexeme)
    (balanced : Balanced text)
    : Balanced (replaceAll idioms comment text)
      ↔ ∀ lexeme ∈ removed idioms comment text, excess lexeme = 0 := by
  refine ⟨fun kept lexeme member => ?_, fun neutral => balanced_replaceAll plain neutral balanced⟩
  have left : excess (replaceAll idioms comment text) = _ := excess_replaceAll plain text
  have nothing : ((removed idioms comment text).map excess).sum = 0 := by
    rw [kept.1, balanced.1] at left
    omega
  exact List.all_zero_of_le_zero_le_of_sum_eq_zero (List.forall_mem_map.mpr opens) nothing
    (List.mem_map_of_mem member)

-----------------------------------------------------------------------------------------
-- The two templates
-----------------------------------------------------------------------------------------

/-- A removed null guard has the shape of a guard, and no braces in its head. -/
theorem NullGuards.shape_of_removed (text : List Char)
    : ∀ guard ∈ removed text, GuardShape NoBrace guard := by
  have blank := Guards.noBrace_of_isBlank
  have word := Guards.noBrace_of_isWord
  have shape {condition : Scanner Unit} (reads : condition.ReadsOnly NoBrace) :=
    Guards.shape_of_lexeme blank (noBrace_of_all (by decide)) reads
  refine forall_removed (fun idiom member text => ?_) text
  simp only [idioms, List.mem_cons, List.not_mem_nil, or_false] at member
  rcases member with rfl | rfl | rfl
  · exact shape (Guards.eitherNull_reads blank word (by decide) (by decide)) _ text
  · exact shape (Guards.equalsNull_reads blank word (by decide)) _ text
  · exact shape (Guards.negatedWord_reads blank word (by decide)) _ text

/-- A removed range guard has the shape of a guard. -/
theorem RangeGuards.shape_of_removed (text : List Char)
    : ∀ guard ∈ removed text, GuardShape (fun _ => True) guard := by
  have shape {condition : Scanner Unit} (reads : condition.ReadsOnly fun _ => True) :=
    Guards.shape_of_lexeme (by simp) (by simp) reads
  refine forall_removed (fun idiom member text => ?_) text
  simp only [idioms, List.mem_cons, List.not_mem_nil, or_false] at member
  rcases member with rfl | rfl | rfl
  · exact shape (Guards.outOfBounds_reads (by simp) (by simp) (by simp)) _ text
  · exact shape (Guards.outOfBounds_reads (by simp) (by simp) (by simp)) _ text
  · exact shape Guards.failedValidation_reads _ text

theorem comments_noBrace
    : (∀ c ∈ NullGuards.comment, NoBrace c) ∧ ∀ c ∈ RangeGuards.comment, NoBrace c := by
  exact ⟨noBrace_of_all (by decide), noBrace_of_all (by decide)⟩

/-- Main statement: the removal of null guards keeps the balance of braces exactly when every
removed guard opens one block. The removal of range guards takes the excess of the removed guards
out of the text; it keeps the balance where they have none, and exactly then unless some of them
have more closing than opening braces, which takes a closing brace in the arguments of a
validation.
-/
theorem balanced_rewrite_guards (text : List Char) (balanced : Balanced text)
    : (Balanced (NullGuards.rewrite text)
        ↔ ∀ guard ∈ NullGuards.removed text, guard.count '{' = 1)
      ∧ excess (RangeGuards.rewrite text) = -((RangeGuards.removed text).map excess).sum
      ∧ ((∀ guard ∈ RangeGuards.removed text, excess guard = 0)
        → Balanced (RangeGuards.rewrite text))
      ∧ ((∀ guard ∈ RangeGuards.removed text, 0 ≤ excess guard)
        → (Balanced (RangeGuards.rewrite text)
          ↔ ∀ guard ∈ RangeGuards.removed text, excess guard = 0))
      ∧ ∀ guard ∈ RangeGuards.removed text, guard.count '}' = 1
        → 0 ≤ excess guard ∧ (excess guard = 0 ↔ guard.count '{' = 1) := by
  obtain ⟨nullPlain, rangePlain⟩ := comments_noBrace
  refine ⟨?_, ?_, ?_, ?_, ?_⟩
  · have counted : ∀ guard ∈ NullGuards.removed text,
        0 ≤ excess guard ∧ (excess guard = 0 ↔ guard.count '{' = 1) := by
      intro guard member
      have shape := NullGuards.shape_of_removed text guard member
      exact shape.excess_nonneg shape.count_close
    rw [NullGuards.rewrite,
      balanced_replaceAll_iff nullPlain (fun guard member => (counted guard member).1) balanced]
    exact forall₂_congr fun guard member => (counted guard member).2
  · rw [RangeGuards.rewrite, excess_replaceAll rangePlain, balanced.1, zero_sub]
    rfl
  · exact fun neutral => balanced_replaceAll rangePlain neutral balanced
  · exact fun opens => balanced_replaceAll_iff rangePlain opens balanced
  · intro guard member closes
    exact (RangeGuards.shape_of_removed text guard member).excess_nonneg closes

/-- A function with a guard of either kind, both without a block inside. -/
def flatGuards : List Char :=
  "f() { if (p == NULL) { return; } if (lat < -90 || lat > 90) { return; } }".toList

/-- It stays balanced. -/
theorem balanced_rewrite_of_flatGuards
    : Balanced flatGuards
      ∧ Balanced (NullGuards.rewrite flatGuards)
      ∧ Balanced (RangeGuards.rewrite flatGuards) := by
  have balanced : Balanced flatGuards := by decide +kernel
  obtain ⟨null, -, range, -, -⟩ := balanced_rewrite_guards flatGuards balanced
  exact ⟨balanced, null.mpr (by decide +kernel), range (by decide +kernel)⟩

/-- Guards with a block inside leave its closing brace behind. -/
theorem unbalanced_rewrite_of_nested_blocks
    : (Balanced "if (p == NULL) { if (q) { return; } }".toList
        ∧ ¬ Balanced (NullGuards.rewrite "if (p == NULL) { if (q) { return; } }".toList))
      ∧ Balanced "if (lat < -90 || lat > 90) { if (q) { return; } }".toList
      ∧ ¬ Balanced (RangeGuards.rewrite
          "if (lat < -90 || lat > 90) { if (q) { return; } }".toList) := by
  decide +kernel

end RangeTuner.Rewrite
