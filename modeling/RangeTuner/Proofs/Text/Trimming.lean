import Mathlib.Data.List.DropRight
import RangeTuner.Text.Lines

/-! Trimming a text. Main statements: what is cut off a text at its end, and what trimming leaves
of a text with something visible in it that another text follows.
-/

namespace RangeTuner.Text

variable {c : Char} {p : Char → Bool}

-----------------------------------------------------------------------------------------
-- The end of a text
-----------------------------------------------------------------------------------------

theorem dropEndWhile_subset (p : Char → Bool) (s : List Char)
    : dropEndWhile p s ⊆ s :=
  fun _ member =>
    List.mem_reverse.mp (List.dropWhile_subset _ (List.mem_reverse.mp member))

theorem exists_append_dropEndWhile (p : Char → Bool) (s : List Char)
    : ∃ dropped, s = dropEndWhile p s ++ dropped ∧ ∀ c ∈ dropped, p c = true := by
  refine ⟨(s.reverse.takeWhile p).reverse, ?_, fun c member => ?_⟩
  · rw [dropEndWhile, ← List.reverse_append, List.takeWhile_append_dropWhile, List.reverse_reverse]
  · exact List.all_eq_true.mp List.all_takeWhile c (List.mem_reverse.mp member)

/-- Nothing is cut off before a character that stays. -/
theorem dropEndWhile_append_cons (stays : p c = false) (s t : List Char)
    : dropEndWhile p (s ++ c :: t) = s ++ c :: dropEndWhile p t := by
  unfold dropEndWhile
  rw [List.reverse_append, List.reverse_cons, List.append_assoc, List.dropWhile_append]
  split
  · next gone =>
      rw [List.isEmpty_iff] at gone
      simp [gone, stays]
  · simp

-----------------------------------------------------------------------------------------
-- The beginning of a text
-----------------------------------------------------------------------------------------

/-- Blanks in front of a text are cut off. -/
theorem trimStart_blanks_append {gap : List Char} (blank : ∀ c ∈ gap, isBlank c = true)
    (s : List Char)
    : trimStart (gap ++ s) = trimStart s := by
  rw [trimStart, List.dropWhile_append_of_pos blank, trimStart]

theorem trimStart_cons (visible : isBlank c = false) (s : List Char)
    : trimStart (c :: s) = c :: s :=
  List.dropWhile_cons_of_neg (by simp [visible])

theorem trimStart_trimStart (s : List Char)
    : trimStart (trimStart s) = trimStart s :=
  List.dropWhile_idempotent isBlank s

theorem exists_append_trimStart (s : List Char)
    : ∃ gap, s = gap ++ trimStart s ∧ ∀ c ∈ gap, isBlank c = true :=
  ⟨s.takeWhile isBlank, List.takeWhile_append_dropWhile.symm, fun c member =>
    List.all_eq_true.mp List.all_takeWhile c member⟩

-----------------------------------------------------------------------------------------
-- A text that another one follows
-----------------------------------------------------------------------------------------

/-- What stands behind a text with something visible in it stays, from its first visible character
to its last one.
-/
theorem trim_append_cons {s : List Char} (filled : trim s ≠ []) (visible : isBlank c = false)
    (t : List Char)
    : trim (s ++ c :: t) = trimStart s ++ c :: trimEnd t := by
  have started : trimStart s ≠ [] := by
    intro blank
    rw [trim, blank] at filled
    exact filled rfl
  have front : trimStart (s ++ c :: t) = trimStart s ++ c :: t := by
    rw [trimStart, List.dropWhile_append, if_neg (by simpa [trimStart] using started), trimStart]
  rw [trim, front, trimEnd, dropEndWhile_append_cons visible, trimEnd]

end RangeTuner.Text
