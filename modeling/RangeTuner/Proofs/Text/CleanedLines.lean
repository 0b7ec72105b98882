import RangeTuner.Proofs.Text.LineNotes

/-! Cleaning line by line. A line that leaves no comment open, and whose end is not escaped, is
cleaned by itself. Main statements: lines of code, lines in comments and lines with a comment
behind them are such lines, and a text of such lines is cleaned one by one.
-/

namespace RangeTuner.Text

/-- What a line is cleaned to, where its end takes nothing in and nothing is left open. -/
structure CleansTo (line live : List Char) : Prop where
  cleaned : clean line = live
  unescaped : line.getLast? ≠ some '\\'
  closed : '/' ∉ live

namespace CleansTo

variable {line live content indent : List Char}

theorem not_mem_of_plain {c : Char} (plain : line.all isPlain = true) (sign : isPlain c = false)
    : c ∉ line := by
  intro member
  have among := List.all_eq_true.mp plain c member
  rw [sign] at among
  cases among

theorem of_plain (plain : line.all isPlain = true) : CleansTo line line where
  cleaned := by
    have whole := clean_plain_append plain []
    rwa [List.append_nil, clean_nil, List.append_nil] at whole
  unescaped last := not_mem_of_plain plain (by decide) (List.mem_of_getLast? last)
  closed := not_mem_of_plain plain (by decide)

theorem of_lineComment (single : '\n' ∉ content) (unescaped : content.getLast? ≠ some '\\')
    : CleansTo (lineComment content) [] where
  cleaned := by
    have whole := clean_lineComment_append single []
    rwa [List.append_nil] at whole
  unescaped := by
    cases content with
    | nil => decide
    | cons c content => simpa [lineComment] using unescaped
  closed := List.not_mem_nil

/-- A block comment at the end of a line is cleaned away. -/
theorem append_blockComment (plain : line.all isPlain = true) (inert : EndsNoComment content)
    : CleansTo (line ++ blockComment content) line where
  cleaned := by
    have whole := clean_blockComment inert []
    rw [List.append_nil] at whole
    rw [clean_plain_append plain, whole]
    exact List.append_nil line
  unescaped := by simp [blockComment, List.getLast?_cons]
  closed := not_mem_of_plain plain (by decide)

theorem of_blockComment (inert : EndsNoComment content) : CleansTo (blockComment content) [] :=
  have alone : CleansTo ([] ++ blockComment content) [] := append_blockComment rfl inert
  alone

/-- No comment is open behind the line. -/
theorem uncommented (cleans : CleansTo line live) : occurs ['/', '*'] (clean line) = false := by
  rw [← Bool.not_eq_true, occurs_iff_isInfix, cleans.cleaned]
  exact fun within => cleans.closed (within.subset List.mem_cons_self)

/-- Lines are cleaned with the blanks before them. -/
theorem indented (cleans : CleansTo line live) (blank : ∀ c ∈ indent, isBlank c = true)
    : CleansTo (indent ++ line) (indent ++ live) where
  cleaned := by rw [clean_blanks_append blank, cleans.cleaned]
  unescaped := by
    intro last
    rw [List.getLast?_append, Option.or_eq_some_iff] at last
    rcases last with inLine | ⟨-, inIndent⟩
    · exact cleans.unescaped inLine
    · exact absurd (blank _ (List.mem_of_getLast? inIndent)) (by decide)
  closed := by
    refine List.not_mem_append (fun member => ?_) cleans.closed
    exact absurd (blank _ member) (by decide)

end CleansTo

/-- Lines are cleaned one by one, by induction on them. -/
theorem clean_lines {lines lives : List (List Char)} (each : List.Forall₂ CleansTo lines lives)
    (t : List Char)
    : clean (lines.flatMap (· ++ ['\n']) ++ t) = lives.flatMap (· ++ ['\n']) ++ clean t := by
  induction each with
  | nil => rfl
  | @cons line live lines lives first rest ih =>
      simp only [List.flatMap_cons, List.append_assoc, List.cons_append, List.nil_append]
      rw [clean_append_line first.unescaped first.uncommented, first.cleaned, ih]

end RangeTuner.Text
