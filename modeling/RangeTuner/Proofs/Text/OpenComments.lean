import RangeTuner.Proofs.Text.Lexemes

/-! Places in block comments. A comment that a line leaves open is found in the cleaned line, and
takes in whatever follows the line, up to the first end of a comment. Main statement: so the end
of a line lies in a comment exactly where the cleaned text before it leaves one open and the text
behind it closes it.
-/

namespace RangeTuner.Text

open Lexeme (Formed)

/-- The place between two parts of a text lies in a block comment of it, behind where the comment
starts and before where it ends.
-/
structure InBlockComment (before after : List Char) : Prop where
  within : ∃ first content last start finish,
    Lexeme.idiom.pieces (before ++ after)
        = first ++ .hit .comment (blockComment content) :: last
      ∧ before = first.flatMap Piece.text ++ start ∧ after = finish ++ last.flatMap Piece.text
      ∧ start ≠ [] ∧ finish ≠ []

variable {s t before after : List Char}

/-- What does not have a character occurs on one side of it. -/
theorem occurs_append_cons_iff {part : List Char} {c : Char} (foreign : c ∉ part)
    : occurs part (s ++ c :: t) = true ↔ occurs part s = true ∨ occurs part t = true := by
  simp only [occurs_iff_isInfix]
  refine ⟨infix_of_append_cons foreign, ?_⟩
  rintro (before | behind)
  · exact before.trans (List.prefix_append s (c :: t)).isInfix
  · exact behind.trans ((List.suffix_cons c t).trans (List.suffix_append s (c :: t))).isInfix

/-- Where no comment starts, a text and its cleaned text start alike. -/
theorem head?_clean (apart : s.head? ≠ some '/') : (clean s).head? = s.head? := by
  cases s with
  | nil => rfl
  | cons c s =>
      cases scanned : Lexeme.scan (c :: s) with
      | none => rw [clean_cons scanned, List.head?_cons, List.head?_cons]
      | some found =>
          obtain ⟨kind, rest⟩ := found
          obtain ⟨lexeme, whole, formed⟩ := Lexeme.exists_of_scan scanned
          rw [whole] at apart ⊢
          rw [clean_append formed]
          cases formed with
          | line | block => exact absurd rfl apart
          | literal => rfl

/-- A comment that is no lexeme does not end. -/
theorem endsNoComment_of_scan {content : List Char}
    (code : Lexeme.scan ('/' :: '*' :: content) = none)
    : EndsNoComment content := by
  simpa [Lexeme.scan, EndsNoComment, occurs] using code

/-- Where a character of code opens no comment, the cleaned text opens one behind it. -/
theorem infix_clean_of_cons {c : Char} (code : Lexeme.scan (c :: s) = none)
    (apart : ¬ ['/', '*'] <+: c :: s) (opened : ['/', '*'] <:+: clean (c :: s))
    : ['/', '*'] <:+: clean s := by
  rw [clean_cons code, List.infix_cons_iff] at opened
  refine opened.resolve_left ?_
  rintro ⟨rest, same⟩
  obtain ⟨rfl, star⟩ := List.cons.inj same
  -- the star of the cleaned text is one of the text
  have first : (clean s).head? = some '*' := by rw [← star]; rfl
  rw [head?_clean ((Lexeme.of_scan_cons code).2 rfl)] at first
  obtain ⟨more, rfl⟩ := List.head?_eq_some_iff.mp first
  exact apart ⟨more, rfl⟩

/-- A lexeme of a text is one of the text with a line end behind it. -/
theorem Lexeme.Formed.append_line {kind : Lexeme} {lexeme : List Char}
    (formed : Formed kind lexeme s) (t : List Char)
    : Formed kind lexeme (s ++ '\n' :: t) := by
  cases formed with
  | line single ended => exact .line single (by cases s <;> simp_all)
  | block inert => exact .block inert
  | literal mark closed => exact .literal mark closed

/-- A comment that does not end on its line ends at the first end of a comment behind the line. -/
theorem pieces_of_unended {content inner : List Char} (unended : EndsNoComment content)
    (inert : EndsNoComment inner) (rest : List Char)
    : Lexeme.idiom.pieces ('/' :: '*' :: content ++ '\n' :: (inner ++ '*' :: '/' :: rest))
      = .hit .comment (blockComment (content ++ '\n' :: inner)) :: Lexeme.idiom.pieces rest := by
  have ended : '/' :: '*' :: content ++ '\n' :: (inner ++ '*' :: '/' :: rest)
      = blockComment (content ++ '\n' :: inner) ++ rest := by
    simp [blockComment]
  rw [ended, Lexeme.pieces_append (.block (unended.append_cons inert (by decide)))]

/-- A comment that the cleaned text leaves open ends at the first end of a comment behind its line,
whatever follows the line. By induction on the lexemes before.
-/
theorem pieces_of_open (whole : s.getLast? ≠ some '\\')
    (leaves : occurs ['/', '*'] (clean s) = true)
    : ∃ first content, s = first.flatMap Piece.text ++ '/' :: '*' :: content
      ∧ ∀ inner rest, EndsNoComment inner
        → Lexeme.idiom.pieces (s ++ '\n' :: (inner ++ '*' :: '/' :: rest))
          = first ++ .hit .comment (blockComment (content ++ '\n' :: inner))
            :: Lexeme.idiom.pieces rest := by
  induction s using Lexeme.source_induction with
  | nil => cases leaves
  | code c s code ih =>
      by_cases opens : ['/', '*'] <+: c :: s
      · -- the comment starts here, and ends nowhere in the text
        obtain ⟨content, same⟩ := opens
        rw [← same] at code ⊢
        exact ⟨[], content, rfl, fun inner rest inert =>
          pieces_of_unended (endsNoComment_of_scan code) inert rest⟩
      · have wholeTail : s.getLast? ≠ some '\\' := by
          cases s <;> simp_all
        have later := infix_clean_of_cons code opens (occurs_iff_isInfix.mp leaves)
        obtain ⟨first, content, same, goesOn⟩ := ih wholeTail (occurs_iff_isInfix.mpr later)
        refine ⟨.plain c :: first, content, by rw [same]; rfl, fun inner rest inert => ?_⟩
        have code' : Lexeme.scan (c :: (s ++ '\n' :: (inner ++ '*' :: '/' :: rest))) = none := by
          have alike := Lexeme.scan_append_line (t := inner ++ '*' :: '/' :: rest)
            (List.cons_ne_nil c s) whole (.inr fun opens' => absurd opens' opens)
          simpa [code] using alike
        rw [List.cons_append, Lexeme.pieces_cons code', goesOn inner rest inert, List.cons_append]
  | lexeme kind lexeme rest formed ih =>
      have wholeTail : rest.getLast? ≠ some '\\' := by
        intro last
        simp [List.getLast?_append, last] at whole
      rw [clean_append formed, occurs_iff_isInfix] at leaves
      have later : occurs ['/', '*'] (clean rest) = true :=
        occurs_iff_isInfix.mpr (infix_of_append_left formed.slash_not_mem_remnant leaves)
      obtain ⟨first, content, same, goesOn⟩ := ih wholeTail later
      refine ⟨.hit kind lexeme :: first, content, ?_, fun inner rest' inert => ?_⟩
      · rw [List.flatMap_cons, List.append_assoc, ← same]
        rfl
      · rw [List.append_assoc, Lexeme.pieces_append (formed.append_line _),
          goesOn inner rest' inert, List.cons_append]

/-- What stands behind a line that leaves a comment open is cleaned away up to the end of the
comment.
-/
theorem clean_of_open (whole : s.getLast? ≠ some '\\')
    (leaves : occurs ['/', '*'] (clean s) = true)
    : ∃ live, ∀ inner rest, EndsNoComment inner
        → clean (s ++ '\n' :: (inner ++ '*' :: '/' :: rest)) = live ++ clean rest := by
  obtain ⟨first, content, -, parts⟩ := pieces_of_open whole leaves
  refine ⟨first.flatMap (Piece.replaced Lexeme.remnant), fun inner rest inert => ?_⟩
  simp only [clean, Idiom.replace_eq_replaced, parts inner rest inert, List.flatMap_append,
    List.flatMap_cons]
  rfl

namespace InBlockComment

/-- A comment that the cleaned line leaves open goes over the end of the line, if it ends at all. -/
theorem of_open (whole : s.getLast? ≠ some '\\') (leaves : occurs ['/', '*'] (clean s) = true)
    (closes : occurs ['*', '/'] t = true)
    : InBlockComment (s ++ ['\n']) t := by
  obtain ⟨⟨inner, rest⟩, split⟩ := Option.isSome_iff_exists.mp closes
  obtain ⟨first, content, same, parts⟩ := pieces_of_open whole leaves
  have behind := eq_append_of_splitAtFirst? split
  refine ⟨first, content ++ '\n' :: inner, Lexeme.idiom.pieces rest,
    '/' :: '*' :: (content ++ ['\n']), inner ++ ['*', '/'], ?_, ?_, ?_, by simp, by simp⟩
  · rw [behind, List.append_assoc]
    exact parts inner rest (not_occurs_before (by simp) split)
  · rw [same, List.append_assoc]
    rfl
  · rw [Idiom.pieces_text, behind, List.append_assoc]

/-- No comment goes over a place at which the text is cut in two. -/
theorem elim_of_pieces (cut : Lexeme.idiom.pieces (before ++ after)
      = Lexeme.idiom.pieces before ++ Lexeme.idiom.pieces after)
    : ¬ InBlockComment before after := by
  rintro ⟨first, content, last, start, finish, parts, same, same', filled, filled'⟩
  rw [cut] at parts
  rcases append_cons_eq_append_iff.mp parts.symm with ⟨x, left, rfl⟩ | ⟨x, rfl, right⟩
  · -- the comment ends before the place
    have behind := congrArg List.length same'
    simp only [List.flatMap_append, List.length_append, Idiom.pieces_text] at behind
    have positive := List.length_pos_iff.mpr filled'
    omega
  · have inFront := congrArg List.length same
    simp only [List.flatMap_append, List.length_append, Idiom.pieces_text] at inFront
    have positive := List.length_pos_iff.mpr filled
    omega

end InBlockComment

-----------------------------------------------------------------------------------------
-- Places at the ends of lines
-----------------------------------------------------------------------------------------

/-- The text ends in a line that a backslash at its end joins with the next one. -/
def EndsContinued (s : List Char) : Prop :=
  ['\\'] <:+ s ∨ ['\\', '\n'] <:+ s

instance (s : List Char) : Decidable (EndsContinued s) :=
  inferInstanceAs (Decidable (_ ∨ _))

theorem endsContinued_line_iff : EndsContinued (s ++ ['\n']) ↔ s.getLast? = some '\\' := by
  have feed : ¬ ['\\'] <:+ s ++ ['\n'] := by
    rw [List.singleton_suffix_iff_getLast?_eq_some]
    simp
  have ended : ['\\'] ++ ['\n'] <:+ s ++ ['\n'] ↔ ['\\'] <:+ s := by
    rw [List.suffix_append_inj_of_length_eq rfl, and_iff_left rfl]
  rw [EndsContinued, or_iff_right feed, ← List.singleton_suffix_iff_getLast?_eq_some]
  exact ended

/-- The end of a line leaves the comment open that the line leaves open. -/
theorem occurs_clean_line_iff (whole : s.getLast? ≠ some '\\')
    : occurs ['/', '*'] (clean (s ++ ['\n'])) = true ↔ occurs ['/', '*'] (clean s) = true := by
  rw [clean_append_of_line whole (.inl rfl), occurs_append_cons_iff (by decide),
    or_iff_left (by decide)]

/-- Main statement: the end of a line that is not continued lies in a comment exactly where the
cleaned text before it leaves one open and the text behind it closes it.
-/
theorem inBlockComment_iff (ends : after = [] ∨ before = [] ∨ ∃ r, before = r ++ ['\n'])
    (whole : ¬ EndsContinued before)
    : InBlockComment before after
      ↔ occurs ['/', '*'] (clean before) = true ∧ occurs ['*', '/'] after = true := by
  have noPieces : Lexeme.idiom.pieces [] = [] := rfl
  rcases ends with rfl | rfl | ⟨r, rfl⟩
  · refine iff_of_false (InBlockComment.elim_of_pieces ?_) fun ⟨_, closes⟩ => nomatch closes
    rw [List.append_nil, noPieces, List.append_nil]
  · refine iff_of_false (InBlockComment.elim_of_pieces ?_) fun ⟨leaves, _⟩ => nomatch leaves
    rw [List.nil_append, noPieces, List.nil_append]
  · rw [endsContinued_line_iff] at whole
    rw [occurs_clean_line_iff whole]
    refine ⟨fun inside => ?_, fun ⟨opened, closes⟩ => .of_open whole opened closes⟩
    have crossed : ¬ (EndsNoComment after ∨ occurs ['/', '*'] (clean r) = false) := by
      intro closed
      refine InBlockComment.elim_of_pieces ?_ inside
      rw [List.append_assoc, List.singleton_append, Lexeme.pieces_append_line whole closed,
        Lexeme.pieces_append_line (t := []) whole (.inl rfl), noPieces, List.append_assoc]
      rfl
    simpa [EndsNoComment, and_comm] using crossed

end RangeTuner.Text
