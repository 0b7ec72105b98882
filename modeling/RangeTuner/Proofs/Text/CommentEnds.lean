import RangeTuner.Proofs.Text.LineOccurrence

/-! Texts in which no comment ends. Main statements: how they are put together from characters and
from lines, and where the first end of a comment is found behind them.
-/

namespace RangeTuner.Text

/-- No comment ends in the text. -/
abbrev EndsNoComment (s : List Char) : Prop :=
  occurs ['*', '/'] s = false

variable {s t : List Char} {c : Char}

theorem endsNoComment_iff : EndsNoComment s ↔ ¬ ['*', '/'] <:+: s := by
  rw [EndsNoComment, ← Bool.not_eq_true, occurs_iff_isInfix]

namespace EndsNoComment

theorem of_absent (absent : c ∉ s) (sign : c ∈ ['*', '/']) : EndsNoComment s :=
  endsNoComment_iff.mpr fun within => absent (within.subset sign)

/-- In front of a text without an end of a comment a star makes one only before a slash. -/
theorem cons (none : EndsNoComment s) (apart : c = '*' → s.head? ≠ some '/')
    : EndsNoComment (c :: s) := by
  rw [endsNoComment_iff] at none ⊢
  intro within
  rcases List.infix_cons_iff.mp within with ⟨rest, same⟩ | later
  · obtain ⟨star, slash⟩ := List.cons.inj same
    exact apart star.symm (by rw [← slash]; rfl)
  · exact none later

/-- Neither part of an end stands at a character that is in none. -/
theorem append_cons (first : EndsNoComment s) (last : EndsNoComment t)
    (foreign : c ∉ ['*', '/'])
    : EndsNoComment (s ++ c :: t) := by
  rw [endsNoComment_iff] at first last ⊢
  intro within
  rcases infix_of_append_cons foreign within with before | behind
  · exact first before
  · exact last behind

theorem of_append_right (none : EndsNoComment (s ++ t)) : EndsNoComment t := by
  rw [endsNoComment_iff] at none ⊢
  exact fun within => none (within.trans (List.suffix_append s t).isInfix)

theorem dropWhile (none : EndsNoComment s) (p : Char → Bool) : EndsNoComment (s.dropWhile p) := by
  rw [← List.takeWhile_append_dropWhile (p := p) (l := s)] at none
  exact none.of_append_right

/-- No comment ends in lines in none of which one ends, by induction on them. -/
theorem lines_append {lines : List (List Char)} (each : ∀ l ∈ lines, EndsNoComment l)
    (last : EndsNoComment t)
    : EndsNoComment (lines.flatMap (· ++ ['\n']) ++ t) := by
  induction lines with
  | nil => exact last
  | cons l lines ih =>
      obtain ⟨first, others⟩ := List.forall_mem_cons.mp each
      simpa using first.append_cons (ih others) (by decide : '\n' ∉ ['*', '/'])

end EndsNoComment

/-- An end of a comment is found where none stands before it, by induction on what does. -/
theorem splitAtFirst?_content {content : List Char} (inert : EndsNoComment content)
    (t : List Char)
    : splitAtFirst? ['*', '/'] (content ++ '*' :: '/' :: t) = some (content, t) := by
  induction content with
  | nil => simp [splitAtFirst?, after?]
  | cons c content ih =>
      have here : after? ['*', '/'] (c :: content) = none := by
        cases start : after? ['*', '/'] (c :: content) with
        | none => rfl
        | some rest => simp [EndsNoComment, occurs, splitAtFirst?, start] at inert
      have later : EndsNoComment content := inert.of_append_right (s := [c])
      have nowhere : after? ['*', '/'] (c :: (content ++ '*' :: '/' :: t)) = none := by
        cases content with
        | nil => simp [after?]
        | cons d content => simpa [after?] using here
      simp [splitAtFirst?, nowhere, ih later]

/-- A part with an end of a comment in it is found where no comment ends before that, by induction
on what stands before the part.
-/
theorem splitAtFirst?_of_endsNoComment {s start more : List Char}
    (inert : EndsNoComment (s ++ start)) (t : List Char)
    : splitAtFirst? (start ++ '*' :: '/' :: more) (s ++ (start ++ '*' :: '/' :: (more ++ t)))
      = some (s, t) := by
  induction s with
  | nil =>
      obtain ⟨c, rest, filled⟩ : ∃ c rest, start ++ '*' :: '/' :: (more ++ t) = c :: rest := by
        cases start <;> exact ⟨_, _, rfl⟩
      have here : after? (start ++ '*' :: '/' :: more) (c :: rest) = some t :=
        after?_eq_some_iff.mpr (by simpa using filled.symm)
      rw [List.nil_append, filled, splitAtFirst?, here]
  | cons c s ih =>
      have nowhere : after? (start ++ '*' :: '/' :: more)
          (c :: (s ++ (start ++ '*' :: '/' :: (more ++ t)))) = none := by
        refine Option.eq_none_iff_forall_ne_some.mpr fun rest found => ?_
        -- the first end of a comment would stand in two places
        have same : (c :: s ++ start) ++ '*' :: '/' :: (more ++ t)
            = start ++ '*' :: '/' :: (more ++ rest) := by
          simpa using after?_eq_some_iff.mp found
        have twice := (splitAtFirst?_content inert (more ++ t)).symm.trans
          ((congrArg _ same).trans (splitAtFirst?_content inert.of_append_right (more ++ rest)))
        have equal := congrArg List.length (Prod.mk.inj (Option.some.inj twice)).1
        simp only [List.length_append, List.length_cons] at equal
        omega
      have inner : EndsNoComment (s ++ start) := inert.of_append_right (s := [c])
      rw [List.cons_append, splitAtFirst?, nowhere, ih inner]
      rfl

end RangeTuner.Text
