import RangeTuner.Proofs.Text.CommentEnds
import RangeTuner.Source.Extraction

/-! Comments and features. Cleaning takes a text lexeme by lexeme. No lexeme goes over a line
feed but a block comment and a literal with an escaped one, so a text is cleaned in two parts
where a line ends, and a comment at the start of the second part is left out. Main statement: a
source with a comment has the features of the source without it.
-/

namespace RangeTuner.Text

-----------------------------------------------------------------------------------------
-- Lexemes before the end of a line
-----------------------------------------------------------------------------------------

namespace Lexeme

/-- Whether a literal is closed is decided before the end of its line, by induction on the text. -/
theorem afterLiteral?_append_line {quote : Char} (visible : quote ≠ '\n') {s : List Char}
    (whole : s.getLast? ≠ some '\\') (t : List Char)
    : afterLiteral? quote (s ++ '\n' :: t)
      = (afterLiteral? quote s).map (· ++ '\n' :: t) := by
  induction s using afterLiteral?.induct quote with
  | case1 => simp [afterLiteral?, visible.symm]
  | case2 => exact absurd rfl whole
  | case3 c s ih =>
      have whole : s.getLast? ≠ some '\\' := by
        cases s <;> simp_all
      simpa [afterLiteral?] using ih whole
  | case4 s single escape =>
      have plain : quote ≠ '\\' := by
        rintro rfl
        cases s <;> simp_all
      simp [afterLiteral?, plain]
  | case5 s single escape => simp [afterLiteral?, visible.symm]
  | case6 c s single escape other line ih =>
      have plain : c ≠ '\\' := by
        rintro rfl
        cases s <;> simp_all
      have whole : s.getLast? ≠ some '\\' := by
        cases s <;> simp_all
      simpa [afterLiteral?, plain, other, line] using ih whole

/-- A line comment ends where its line ends. -/
theorem dropWhile_append_line (s t : List Char)
    : (s ++ '\n' :: t).dropWhile (· ≠ '\n') = s.dropWhile (· ≠ '\n') ++ '\n' :: t := by
  rw [List.dropWhile_append]
  split
  · next ended =>
      rw [List.isEmpty_iff.mp ended]
      simp
  · rfl

/-- The first character of a line that goes on is the one it starts with. -/
theorem eq_cons_of_append_line {s t rest : List Char} {c : Char}
    (same : s ++ '\n' :: t = c :: rest) (visible : c ≠ '\n')
    : ∃ s', s = c :: s' := by
  cases s with
  | nil => exact absurd (List.cons.inj same).1.symm visible
  | cons d s' => exact ⟨s', by rw [(List.cons.inj same).1]⟩

/-- What a lexeme is does not change with what follows the end of a line, as long as a comment that
it opens is closed before or not at all.
-/
theorem scan_append_line {s t : List Char} (filled : s ≠ []) (whole : s.getLast? ≠ some '\\')
    (closed : EndsNoComment t ∨ (['/', '*'] <+: s → (scan s).isSome = true))
    : scan (s ++ '\n' :: t)
      = (scan s).map fun (lexeme, rest) => (lexeme, rest ++ '\n' :: t) := by
  have tail : ∀ c s', s = c :: s' → s'.getLast? ≠ some '\\' := by
    rintro c s' rfl
    cases s' <;> simp_all
  fun_cases scan s with
  | case1 s => simp only [List.cons_append, scan, Option.map_some, dropWhile_append_line]
  | case2 s =>
      cases split : splitAtFirst? ['*', '/'] s with
      | some found => simp [scan, splitAtFirst?_append split ('\n' :: t)]
      | none =>
          rcases closed with unended | closed
          · -- no end of a comment on either side of the line feed
            have inert : EndsNoComment s := by simp [EndsNoComment, occurs, split]
            have unclosed : EndsNoComment (s ++ '\n' :: t) :=
              inert.append_cons unended (by decide)
            simp only [EndsNoComment, occurs, Option.isSome_eq_false_iff,
              Option.isNone_iff_eq_none] at unclosed
            simp [scan, unclosed]
          · obtain ⟨found, scanned⟩ := Option.isSome_iff_exists.mp (closed ⟨s, rfl⟩)
            simp [scan, split] at scanned
  | case3 s =>
      simp only [List.cons_append, scan,
        afterLiteral?_append_line (by decide : '"' ≠ '\n') (tail _ s rfl) t, Option.map_map]
      rfl
  | case4 s =>
      simp only [List.cons_append, scan,
        afterLiteral?_append_line (by decide : '\'' ≠ '\n') (tail _ s rfl) t, Option.map_map]
      rfl
  | case5 s line block double single =>
      obtain ⟨c, s, rfl⟩ := List.exists_cons_of_ne_nil filled
      show scan (c :: (s ++ '\n' :: t)) = none
      unfold scan
      split
      · next rest same =>
          obtain ⟨rfl, later⟩ := List.cons.inj same
          obtain ⟨s', rfl⟩ := eq_cons_of_append_line later (by decide)
          exact absurd rfl (line s')
      · next rest same =>
          obtain ⟨rfl, later⟩ := List.cons.inj same
          obtain ⟨s', rfl⟩ := eq_cons_of_append_line later (by decide)
          exact absurd rfl (block s')
      · next rest same => exact absurd (by rw [(List.cons.inj same).1]) (double s)
      · next rest same => exact absurd (by rw [(List.cons.inj same).1]) (single s)
      · rfl

/-- Where a text goes on after a line, its first lexeme is the one of the line. -/
theorem read?_append_line {s t : List Char} (filled : s ≠ []) (whole : s.getLast? ≠ some '\\')
    (closed : EndsNoComment t ∨ (['/', '*'] <+: s → (scan s).isSome = true))
    (before : Option Char)
    : idiom.read? before (s ++ '\n' :: t) = idiom.read? before s := by
  have short : idiom.scan s = scan s := rfl
  have long : idiom.scan (s ++ '\n' :: t) = _ := scan_append_line filled whole closed
  simp only [Idiom.read?, short, long]
  cases scan s with
  | none => rfl
  | some found =>
      simp only [Option.map_some, List.length_append, Nat.add_lt_add_iff_right,
        Nat.add_sub_add_right]

-----------------------------------------------------------------------------------------
-- Cleaning
-----------------------------------------------------------------------------------------

/-- Lexemes begin anywhere, whatever stands before them. -/
theorem piecesFrom_anywhere (before : Option Char) (s : List Char)
    : idiom.piecesFrom 0 before s = idiom.pieces s :=
  Idiom.piecesFrom_congr (show idiom.opening.admits before = idiom.opening.admits none from rfl) 0 s

/-- A comment that is opened and not closed is left in the cleaned text. -/
theorem scan_isSome_of_closed {before : Option Char} {s : List Char}
    (closed : ¬ ['/', '*'] <:+: (idiom.piecesFrom 0 before s).flatMap (Piece.replaced remnant))
    (opened : ['/', '*'] <+: s)
    : (scan s).isSome = true := by
  obtain ⟨s, rfl⟩ := opened
  refine Option.isSome_iff_ne_none.mpr fun unclosed => closed ?_
  have plain : ∀ before c s, scan (c :: s) = none
      → idiom.piecesFrom 0 before (c :: s) = .plain c :: idiom.piecesFrom 0 (some c) s := by
    intro before c s nothing
    have scanned : idiom.scan (c :: s) = none := nothing
    simp [Idiom.piecesFrom, Idiom.read?, scanned]
  have cut : idiom.piecesFrom 0 before ('/' :: '*' :: s) = _ := plain before '/' ('*' :: s) unclosed
  rw [plain (some '/') '*' s rfl] at cut
  simp only [List.cons_append, List.nil_append, cut, List.flatMap_cons, Piece.replaced]
  exact ⟨[], _, rfl⟩

/-- Where a text goes on after a line, its pieces are those of the line and those of the rest, by
induction on the line.
-/
theorem piecesFrom_append_line {s t : List Char} (whole : s.getLast? ≠ some '\\')
    {covered : Nat} (fits : covered ≤ s.length) {before : Option Char}
    (closed : EndsNoComment t ∨ ¬ ['/', '*'] <:+:
      (idiom.piecesFrom covered before s).flatMap (Piece.replaced remnant))
    : idiom.piecesFrom covered before (s ++ '\n' :: t)
      = idiom.piecesFrom covered before s ++ .plain '\n' :: idiom.pieces t := by
  induction s generalizing covered before with
  | nil =>
      obtain rfl : covered = 0 := Nat.le_zero.mp fits
      have feed : idiom.read? before ('\n' :: t) = none := by
        have scanned : idiom.scan ('\n' :: t) = none := rfl
        simp [Idiom.read?, scanned]
      simp only [List.nil_append, Idiom.piecesFrom, feed]
      exact congrArg (Piece.plain '\n' :: ·) (piecesFrom_anywhere (some '\n') t)
  | cons c s ih =>
      have wholeTail : s.getLast? ≠ some '\\' := by
        cases s <;> simp_all
      cases covered with
      | succ n =>
          simp only [List.cons_append, Idiom.piecesFrom] at closed ⊢
          exact ih wholeTail (Nat.le_of_succ_le_succ fits) closed
      | zero =>
          have read := read?_append_line (t := t) (List.cons_ne_nil c s) whole
            (closed.imp_right scan_isSome_of_closed) before
          simp only [List.cons_append] at read
          simp only [List.cons_append, Idiom.piecesFrom, read] at closed ⊢
          cases found : idiom.read? before (c :: s) with
          | none =>
              simp only [found, List.flatMap_cons] at closed ⊢
              rw [ih wholeTail (Nat.zero_le _) (closed.imp_right fun none left =>
                none (left.trans (List.suffix_append _ _).isInfix))]
              rfl
          | some hit =>
              obtain ⟨lexeme, length⟩ := hit
              obtain ⟨-, short⟩ := Idiom.read?_length found
              simp only [found, List.flatMap_cons] at closed ⊢
              have same : (c :: (s ++ '\n' :: t)).take length = (c :: s).take length :=
                List.take_append_of_le_length short
              rw [ih wholeTail (by simpa using Nat.sub_le_of_le_add short)
                (closed.imp_right fun none left =>
                  none (left.trans (List.suffix_append _ _).isInfix)), same]
              rfl

end Lexeme

/-- A text is cut in two where a line of it ends that leaves no comment open, or where no comment
ends behind it.
-/
theorem Lexeme.pieces_append_line {s t : List Char} (whole : s.getLast? ≠ some '\\')
    (closed : EndsNoComment t ∨ occurs ['/', '*'] (clean s) = false)
    : idiom.pieces (s ++ '\n' :: t) = idiom.pieces s ++ .plain '\n' :: idiom.pieces t := by
  refine piecesFrom_append_line whole (Nat.zero_le _) (closed.imp_right fun none opened => ?_)
  rw [← Idiom.pieces, ← Idiom.replace_eq_replaced, ← occurs_iff_isInfix] at opened
  cases opened.symm.trans none

/-- A text is cleaned in two parts where a line of it ends that leaves no comment open, or where no
comment ends behind it.
-/
theorem clean_append_of_line {s t : List Char} (whole : s.getLast? ≠ some '\\')
    (closed : EndsNoComment t ∨ occurs ['/', '*'] (clean s) = false)
    : clean (s ++ '\n' :: t) = clean s ++ '\n' :: clean t := by
  simp only [clean, Idiom.replace_eq_replaced]
  rw [Lexeme.pieces_append_line whole closed]
  simp [Piece.replaced]

/-- A text is cleaned in two parts where a line of it ends that leaves no comment open. -/
theorem clean_append_line {s : List Char} (whole : s.getLast? ≠ some '\\')
    (closed : occurs ['/', '*'] (clean s) = false) (t : List Char)
    : clean (s ++ '\n' :: t) = clean s ++ '\n' :: clean t :=
  clean_append_of_line whole (.inr closed)

/-- A comment at the start of a text is cleaned away. -/
theorem clean_of_comment {comment t : List Char} (filled : comment ≠ [])
    (scanned : Lexeme.scan (comment ++ t) = some (.comment, t))
    : clean (comment ++ t) = clean t := by
  have cut : Lexeme.idiom.pieces (comment ++ t) = .hit .comment comment :: Lexeme.idiom.pieces t :=
    Idiom.pieces_append_of_scan rfl filled scanned
  rw [clean, clean, Idiom.replace_eq_replaced, Idiom.replace_eq_replaced, cut]
  rfl

/-- A block comment with some content. -/
def blockComment (content : List Char) : List Char :=
  '/' :: '*' :: content ++ ['*', '/']

/-- A line comment with some content, without the end of its line. -/
def lineComment (content : List Char) : List Char :=
  '/' :: '/' :: content

theorem clean_blockComment {content : List Char} (inert : occurs ['*', '/'] content = false)
    (t : List Char)
    : clean (blockComment content ++ t) = clean t := by
  refine clean_of_comment (by simp [blockComment]) ?_
  simp [blockComment, Lexeme.scan, splitAtFirst?_content inert]

theorem clean_lineComment {content : List Char} (inert : '\n' ∉ content) (t : List Char)
    : clean (lineComment content ++ '\n' :: t) = clean ('\n' :: t) := by
  refine clean_of_comment (by simp [lineComment]) ?_
  have ended : (content ++ '\n' :: t).dropWhile (· ≠ '\n') = '\n' :: t := by
    rw [List.dropWhile_append_of_pos fun c member => ?_]
    · simp
    · simpa using fun same : c = '\n' => inert (same ▸ member)
  show Lexeme.scan ('/' :: '/' :: (content ++ '\n' :: t)) = _
  rw [Lexeme.scan, ended]

end RangeTuner.Text

namespace RangeTuner.Source

open RangeTuner.Text

/-- Main statement: comments are invisible in features. A comment that begins a line leaves all
features as they are without it, whatever it says, where the text before it ends in no backslash
and leaves no comment open.
-/
theorem extract_ignores_comments (before content after : List Char)
    (whole : before.getLast? ≠ some '\\')
    (closed : occurs "/*".toList (clean before) = false)
    : (occurs "*/".toList content = false
        → Features.extract (before ++ '\n' :: (blockComment content ++ after))
          = Features.extract (before ++ '\n' :: after))
      ∧ ('\n' ∉ content
        → Features.extract (before ++ '\n' :: (lineComment content ++ '\n' :: after))
          = Features.extract (before ++ '\n' :: '\n' :: after)) := by
  refine ⟨fun inert => ?_, fun inert => ?_⟩
  · unfold Features.extract
    rw [clean_append_line whole closed, clean_append_line whole closed,
      clean_blockComment inert]
  · unfold Features.extract
    rw [clean_append_line whole closed, clean_append_line whole closed,
      clean_lineComment inert]

/-- An open quote before a comment and the opening of another inside it do not matter. -/
theorem extract_ignores_comment_after_quote
    : "x = 'y; \"\\\"".toList.getLast? ≠ some '\\'
      ∧ occurs "/*".toList (clean "x = 'y; \"\\\"".toList) = false
      ∧ occurs "*/".toList "\" sin(x) /*".toList = false
      ∧ Features.extract
          ("x = 'y; \"\\\"".toList
            ++ '\n' :: (blockComment "\" sin(x) /*".toList ++ "cos(z)".toList))
        = Features.extract ("x = 'y; \"\\\"".toList ++ '\n' :: "cos(z)".toList) := by
  have whole : "x = 'y; \"\\\"".toList.getLast? ≠ some '\\' := by decide
  have closed : occurs "/*".toList (clean "x = 'y; \"\\\"".toList) = false := by decide
  have inert : occurs "*/".toList "\" sin(x) /*".toList = false := by decide
  exact ⟨whole, closed, inert,
    (extract_ignores_comments _ _ "cos(z)".toList whole closed).1 inert⟩

end RangeTuner.Source
