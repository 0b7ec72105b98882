import RangeTuner.Proofs.Text.Pieces

/-! Whether some line stands in a text, and which changes cannot bring it in. A line stands in a
text where it stands between two line feeds, the ends of the text taken for such. A part that is
put in the place of another brings no line in if what it leaves on each broken line holds a
character that the line does not have. Main statement: such changes, of which there may be many
at once.
-/

namespace RangeTuner.Text

/-- The line stands in the text, between line feeds or the ends of the text. -/
def HasLine (line s : List Char) : Prop :=
  line ∈ s.splitOn '\n'

instance (line s : List Char) : Decidable (HasLine line s) :=
  inferInstanceAs (Decidable (line ∈ s.splitOn '\n'))

/-- A text between line feeds. -/
def fenced (s : List Char) : List Char :=
  '\n' :: (s ++ ['\n'])

/-- The lines of a text that is cut at a line feed are those of its parts. -/
theorem splitOn_append_feed (s t : List Char)
    : (s ++ '\n' :: t).splitOn '\n' = s.splitOn '\n' ++ t.splitOn '\n' :=
  List.splitOnP_append_cons s t (by simp)

/-- The lines of a text that starts with some lines are these and those of the rest. -/
theorem splitOn_lines_append {lines : List (List Char)} (unbroken : ∀ l ∈ lines, '\n' ∉ l)
    (t : List Char)
    : (lines.flatMap (· ++ ['\n']) ++ t).splitOn '\n' = lines ++ t.splitOn '\n' := by
  induction lines with
  | nil => rfl
  | cons l lines ih =>
      rw [List.forall_mem_cons] at unbroken
      rw [List.flatMap_cons, List.append_assoc, List.append_assoc, List.singleton_append,
        splitOn_append_feed, List.splitOn_eq_singleton unbroken.1, ih unbroken.2]
      rfl

variable {part line s t u : List Char} {c : Char}

-----------------------------------------------------------------------------------------
-- Parts of a text
-----------------------------------------------------------------------------------------

/-- A part cannot start where its first character does not stand, by induction on what is there. -/
theorem infix_of_append_left (absent : c ∉ u) (within : c :: part <:+: u ++ s)
    : c :: part <:+: s := by
  induction u with
  | nil => exact within
  | cons d u ih =>
      rw [List.mem_cons, not_or] at absent
      rcases List.infix_cons_iff.mp within with start | later
      · exact absurd (List.cons_prefix_cons.mp start).1 absent.1
      · exact ih absent.2 later

/-- A fenced line cannot start within a line. -/
theorem fenced_infix_of_append_left (unbroken : '\n' ∉ u) (within : fenced line <:+: u ++ s)
    : fenced line <:+: s :=
  infix_of_append_left unbroken within

theorem reverse_fenced (line : List Char)
    : (fenced line).reverse = fenced line.reverse := by
  simp [fenced]

/-- A fenced line cannot end within a line. -/
theorem fenced_infix_of_append_right (unbroken : '\n' ∉ u) (within : fenced line <:+: s ++ u)
    : fenced line <:+: s := by
  rw [← List.reverse_infix, reverse_fenced] at within ⊢
  rw [List.reverse_append] at within
  exact fenced_infix_of_append_left (by simpa using unbroken) within

/-- What does not have a character lies on one side of it, by induction on the text before it. -/
theorem infix_of_append_cons (foreign : c ∉ part) (within : part <:+: s ++ c :: t)
    : part <:+: s ∨ part <:+: t := by
  have short : ∀ {s}, part <+: s ++ c :: t → part <+: s := by
    intro s start
    refine List.prefix_of_prefix_length_le start (List.prefix_append _ _) ?_
    refine Nat.le_of_not_lt fun long => ?_
    have further : s ++ [c] <+: part :=
      List.prefix_of_prefix_length_le ⟨t, by simp⟩ start (by rw [List.length_append]; exact long)
    exact foreign (further.subset (by simp))
  induction s with
  | nil =>
      rcases List.infix_cons_iff.mp within with start | later
      · exact .inl (short start).isInfix
      · exact .inr later
  | cons d s ih =>
      rcases List.infix_cons_iff.mp within with start | later
      · exact .inl (short (s := d :: s) start).isInfix
      · exact (ih later).imp_left fun before => before.trans (List.suffix_cons d s).isInfix

-----------------------------------------------------------------------------------------
-- Lines between line feeds
-----------------------------------------------------------------------------------------

/-- A fenced line is the first of several lines or one of the others. -/
theorem fenced_infix_iff (unbroken : '\n' ∉ line) (unbroken' : '\n' ∉ u)
    : fenced line <:+: '\n' :: (u ++ '\n' :: s) ↔ line = u ∨ fenced line <:+: '\n' :: s := by
  constructor
  · intro within
    rcases List.infix_cons_iff.mp within with start | later
    · obtain ⟨rest, same⟩ := (List.cons_prefix_cons.mp start).2
      rw [List.append_assoc] at same
      exact .inl (eq_of_append_cons_eq unbroken unbroken' same)
    · exact .inr (fenced_infix_of_append_left unbroken' later)
  · rintro (rfl | later)
    · exact ⟨[], s, by simp [fenced]⟩
    · exact later.trans ⟨'\n' :: u, [], by simp⟩

/-- A line stands in a text where it stands between line feeds, by induction on what is left of the
text after its first line so far.
-/
theorem hasLine_iff_isInfix (unbroken : '\n' ∉ line)
    : HasLine line s ↔ fenced line <:+: fenced s := by
  suffices general : ∀ u, '\n' ∉ u
      → (line ∈ (u ++ s).splitOn '\n' ↔ fenced line <:+: '\n' :: (u ++ (s ++ ['\n']))) by
    exact general [] List.not_mem_nil
  induction s with
  | nil =>
      intro u whole
      have alone : ¬ fenced line <:+: ['\n'] := fun within => by
        simpa [fenced] using within.length_le
      rw [List.append_nil, List.splitOn_eq_singleton whole, List.nil_append,
        fenced_infix_iff unbroken whole]
      simp [alone]
  | cons c s ih =>
      intro u whole
      by_cases feed : c = '\n'
      · subst feed
        rw [splitOn_append_feed, List.splitOn_eq_singleton whole, List.singleton_append,
          List.mem_cons, List.cons_append, fenced_infix_iff unbroken whole]
        simpa using or_congr_right (ih [] List.not_mem_nil)
      · have longer : '\n' ∉ u ++ [c] := by simp [whole, Ne.symm feed]
        simpa using ih (u ++ [c]) longer

/-- A line does not stand between other lines, by induction on these. -/
theorem not_fenced_infix_lines {others : List (List Char)} (unbroken : '\n' ∉ line)
    (each : ∀ other ∈ others, '\n' ∉ other ∧ line ≠ other)
    : ¬ fenced line <:+: '\n' :: others.flatMap (· ++ ['\n']) := by
  induction others with
  | nil => exact fun within => by simpa [fenced] using within.length_le
  | cons other others ih =>
      rw [List.forall_mem_cons] at each
      obtain ⟨⟨whole, differs⟩, each⟩ := each
      rw [List.flatMap_cons, List.append_assoc, List.singleton_append,
        fenced_infix_iff unbroken whole]
      exact not_or.mpr ⟨differs, ih each⟩

-----------------------------------------------------------------------------------------
-- Changes that bring no line in
-----------------------------------------------------------------------------------------

/-- Wherever one part is put in the place of another, the line does not stand in the text unless
it stood there before.
-/
def BringsNoLine (line new old : List Char) : Prop :=
  ∀ before after, HasLine line (before ++ new ++ after) → HasLine line (before ++ old ++ after)

namespace BringsNoLine

variable {new old : List Char}

theorem refl (line s : List Char) : BringsNoLine line s s :=
  fun _ _ => id

theorem trans {middle : List Char} (first : BringsNoLine line new middle)
    (second : BringsNoLine line middle old)
    : BringsNoLine line new old :=
  fun before after => second before after ∘ first before after

/-- Changes can be made one beside the other. -/
theorem append {new' old' : List Char} (first : BringsNoLine line new old)
    (second : BringsNoLine line new' old')
    : BringsNoLine line (new ++ new') (old ++ old') := by
  intro before after found
  have changed := first before (new' ++ after) (by simpa using found)
  simpa using second (before ++ old) after (by simpa using changed)

theorem flatMap {α : Type} {f g : α → List Char} {xs : List α}
    (each : ∀ x ∈ xs, BringsNoLine line (f x) (g x))
    : BringsNoLine line (xs.flatMap f) (xs.flatMap g) := by
  induction xs with
  | nil => exact refl line []
  | cons x xs ih =>
      rw [List.forall_mem_cons] at each
      exact each.1.append (ih each.2)

/-- The whole text may be changed. -/
theorem hasLine (change : BringsNoLine line new old) (found : HasLine line new)
    : HasLine line old := by
  simpa using change [] [] (by simpa using found)

/-- A line that stands around a foreign character stands before it or after it. -/
theorem fenced_infix_of_foreign {first rest : List Char} (foreign : c ∉ fenced line)
    (whole : '\n' ∉ first) (found : fenced line <:+: fenced (s ++ (first ++ c :: rest) ++ t))
    : fenced line <:+: '\n' :: s ∨ fenced line <:+: rest ++ (t ++ ['\n']) := by
  have cut : fenced (s ++ (first ++ c :: rest) ++ t)
      = ('\n' :: s ++ first) ++ c :: (rest ++ (t ++ ['\n'])) := by
    simp [fenced]
  rw [cut] at found
  exact (infix_of_append_cons foreign found).imp_left (fenced_infix_of_append_right whole)

/-- What stands before or after a part of a text stands in the text. -/
theorem fenced_infix_of_beside
    (beside : fenced line <:+: '\n' :: s ∨ fenced line <:+: t ++ ['\n'])
    : fenced line <:+: fenced (s ++ old ++ t) := by
  rcases beside with before | after
  · exact before.trans ⟨[], old ++ t ++ ['\n'], by simp [fenced]⟩
  · exact after.trans ⟨'\n' :: (s ++ old), [], by simp [fenced]⟩

/-- A part without line feeds that holds a foreign character brings no line in. -/
theorem of_foreign (unbroken : '\n' ∉ line) (foreign : c ∉ fenced line) (member : c ∈ new)
    (whole : '\n' ∉ new)
    : BringsNoLine line new old := by
  intro before after found
  rw [hasLine_iff_isInfix unbroken] at found ⊢
  obtain ⟨first, last, rfl⟩ := List.append_of_mem member
  simp only [List.mem_append, List.mem_cons, not_or] at whole
  exact fenced_infix_of_beside
    ((fenced_infix_of_foreign foreign whole.1 found).imp_right
      (fenced_infix_of_append_left whole.2.2))

/-- A part brings no line in if it starts and ends with foreign characters and the line does not
stand between them.
-/
theorem of_foreign_ends {d : Char} {middle : List Char} (unbroken : '\n' ∉ line)
    (foreign : c ∉ fenced line) (foreign' : d ∉ fenced line)
    (inside : ¬ fenced line <:+: middle)
    : BringsNoLine line (c :: (middle ++ [d])) old := by
  intro before after found
  rw [hasLine_iff_isInfix unbroken] at found ⊢
  refine fenced_infix_of_beside ?_
  have cut : fenced line <:+: fenced (before ++ ([] ++ c :: (middle ++ [d])) ++ after) := found
  rcases fenced_infix_of_foreign foreign List.not_mem_nil cut with left | right
  · exact .inl left
  · rw [List.append_assoc, List.singleton_append] at right
    exact .inr ((infix_of_append_cons foreign' right).resolve_left inside)

end BringsNoLine

end RangeTuner.Text
