import RangeTuner.Proofs.Text.Balance

/-! What the nesting of a text means. The running depth never goes below zero, so it starts anew
wherever more blocks were closed than opened, and at every place it is the greatest excess of a part
of the text that ends there. Main statement: the deepest nesting of a text, balanced or not, is the
greatest excess of opening over closing braces in any part of it.
-/

namespace RangeTuner.Text

/-- The depth is the greatest excess of a part that ends where the text ends. -/
def EndsExceed (read : List Char) (depth : Nat) : Prop :=
  IsGreatest {d : ℤ | ∃ part, part <:+ read ∧ excess part = d} depth

/-- The depth is the greatest excess of a part of the text. -/
def PartsExceed (read : List Char) (deepest : Nat) : Prop :=
  IsGreatest {d : ℤ | ∃ part, part <:+: read ∧ excess part = d} deepest

/-- The depth behind one more character, at least zero. -/
def depthBehind (depth : Nat) (c : Char) : Nat :=
  (depth + excess [c]).toNat

-----------------------------------------------------------------------------------------
-- One more character
-----------------------------------------------------------------------------------------

/-- A part that ends with one more character has nothing, or a part that ended before. -/
theorem EndsExceed.step {read : List Char} {depth : Nat} (ends : EndsExceed read depth) (c : Char)
    : EndsExceed (read ++ [c]) (depthBehind depth c) := by
  constructor
  · rcases Int.le_total 0 (depth + excess [c]) with opened | closed
    · obtain ⟨part, final, exceeds⟩ := ends.1
      refine ⟨part ++ [c], List.suffix_concat_iff.mpr (.inr ⟨part, rfl, final⟩), ?_⟩
      rw [excess_append, exceeds, depthBehind, Int.toNat_of_nonneg opened]
    · refine ⟨[], List.nil_suffix, ?_⟩
      rw [depthBehind, Int.toNat_of_nonpos closed]
      rfl
  · rintro d ⟨part, final, rfl⟩
    rcases List.suffix_concat_iff.mp final with rfl | ⟨before, rfl, ended⟩
    · exact Int.natCast_nonneg _
    · have most : excess before ≤ depth := ends.2 ⟨before, ended, rfl⟩
      rw [excess_append, depthBehind]
      omega

/-- A part of a text with one more character ends with it, or was there before. -/
theorem PartsExceed.step {read : List Char} {depth deepest : Nat} {c : Char}
    (parts : PartsExceed read deepest) (ends : EndsExceed (read ++ [c]) depth)
    : PartsExceed (read ++ [c]) (max deepest depth) := by
  constructor
  · rcases Nat.le_total depth deepest with lower | higher
    · obtain ⟨part, within, exceeds⟩ := parts.1
      refine ⟨part, List.infix_concat_iff.mpr (.inr within), ?_⟩
      rw [exceeds, Nat.max_eq_left lower]
    · obtain ⟨part, final, exceeds⟩ := ends.1
      refine ⟨part, final.isInfix, ?_⟩
      rw [exceeds, Nat.max_eq_right higher]
  · rintro d ⟨part, within, rfl⟩
    rw [Nat.cast_max, le_max_iff]
    rcases List.infix_concat_iff.mp within with final | before
    · exact .inr (ends.2 ⟨part, final, rfl⟩)
    · exact .inl (parts.2 ⟨part, before, rfl⟩)

/-- A part that ends with the text is one of its parts. -/
theorem EndsExceed.le {read : List Char} {depth deepest : Nat} (ends : EndsExceed read depth)
    (parts : PartsExceed read deepest)
    : depth ≤ deepest := by
  obtain ⟨part, final, exceeds⟩ := ends.1
  exact Int.ofNat_le.mp (parts.2 ⟨part, final.isInfix, exceeds⟩)

/-- One more character moves the depth, and the deepest so far with it; only an opening brace makes
a depth greater than any before.
-/
theorem nestingFrom_cons {depth deepest : Nat} (reached : depth ≤ deepest) (c : Char)
    (s : List Char)
    : nestingFrom depth deepest (c :: s)
      = nestingFrom (depthBehind depth c) (max deepest (depthBehind depth c)) s := by
  by_cases opens : c = '{'
  · subst opens
    rfl
  · by_cases closes : c = '}'
    · subst closes
      have behind : depthBehind depth '}' = depth - 1 := by
        simp only [depthBehind, excess]
        omega
      rw [behind, Nat.max_eq_left ((Nat.sub_le depth 1).trans reached), nestingFrom]
    · have behind : depthBehind depth c = depth := by simp [depthBehind, excess]
      rw [behind, Nat.max_eq_left reached, nestingFrom]
      · exact opens
      · exact closes

-----------------------------------------------------------------------------------------
-- Whole texts
-----------------------------------------------------------------------------------------

theorem exceed_nil
    : EndsExceed [] 0 ∧ PartsExceed [] 0 := by
  constructor
  · refine ⟨⟨[], List.nil_suffix, rfl⟩, ?_⟩
    rintro d ⟨part, final, rfl⟩
    rw [List.suffix_nil.mp final]
    rfl
  · refine ⟨⟨[], List.nil_infix, rfl⟩, ?_⟩
    rintro d ⟨part, within, rfl⟩
    rw [List.infix_nil.mp within]
    rfl

/-- Wherever depths tell the excess of parts so far, they do at the end of the text, by induction on
what is left to read.
-/
theorem partsExceed_nestingFrom {read s : List Char} {depth deepest : Nat}
    (ends : EndsExceed read depth) (parts : PartsExceed read deepest)
    : PartsExceed (read ++ s) (nestingFrom depth deepest s) := by
  induction s generalizing read depth deepest with
  | nil => rwa [List.append_nil]
  | cons c s ih =>
      have behind := ends.step c
      have whole := ih behind (parts.step behind)
      rwa [List.append_assoc, List.singleton_append, ← nestingFrom_cons (ends.le parts)] at whole

/-- Main statement: the deepest nesting of a text is the greatest difference between the numbers of
opening and closing braces in one of its parts, the empty one included.
-/
theorem nesting_is_greatest_excess (s : List Char)
    : IsGreatest {d : ℤ | ∃ part, part <:+: s ∧ d = (part.count '{' : ℤ) - part.count '}'}
        (nesting s) := by
  have whole : PartsExceed s (nesting s) := partsExceed_nestingFrom exceed_nil.1 exceed_nil.2
  simpa only [PartsExceed, excess_eq_count, eq_comm] using whole

example : nesting "\x7d\x7b \x7b\x7d \x7b\x7b \x7d".toList = 3 := by decide

end RangeTuner.Text
