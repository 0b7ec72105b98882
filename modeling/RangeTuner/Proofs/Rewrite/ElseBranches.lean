import RangeTuner.Proofs.Rewrite.RemovalTrace

/-! Removed guards and else branches. A guard is found by its own text only, so it may have an else
branch, or be one, and its comment then stands next to the word `else`. Main statement: a comment of
a rewrite stands next to that word exactly where a removed guard stood next to it in the text.
-/

namespace RangeTuner.Rewrite

open RangeTuner.Text

/-- The last word of a text is `else`, with only blanks behind it. -/
def elseBefore (s : List Char) : Bool :=
  (s.reverse.dropWhile isBlank).takeWhile isWord == "else".toList.reverse

/-- The first word of a text is `else`, with only blanks before it. -/
def elseBehind (s : List Char) : Bool :=
  (s.dropWhile isBlank).takeWhile isWord == "else".toList

/-- A removed text stands next to the word `else`, where every part shows this text. -/
def BesideElse (shown : Piece Unit → List Char) (parts : List (Piece Unit)) : Prop :=
  ∃ first source last, parts = first ++ .hit () source :: last
    ∧ (elseBefore (first.flatMap shown) = true ∨ elseBehind (last.flatMap shown) = true)

-----------------------------------------------------------------------------------------
-- Words next to a removed text
-----------------------------------------------------------------------------------------

/-- A word that starts otherwise is not `else`. -/
theorem takeWhile_isWord_ne {c d : Char} (s rest : List Char) (other : c ≠ d)
    : ((c :: s).takeWhile isWord == d :: rest) = false := by
  rw [List.takeWhile_cons]
  cases isWord c <;> simp [other]

theorem elseBehind_cons {c : Char} (visible : isBlank c = false) (other : c ≠ 'e')
    (s : List Char)
    : elseBehind (c :: s) = false := by
  rw [elseBehind, List.dropWhile_cons, visible]
  exact takeWhile_isWord_ne s _ other

theorem elseBefore_append {c : Char} (visible : isBlank c = false) (other : c ≠ 'e')
    (s : List Char)
    : elseBefore (s ++ [c]) = false := by
  rw [elseBefore, List.reverse_append, List.reverse_singleton, List.singleton_append,
    List.dropWhile_cons, visible]
  exact takeWhile_isWord_ne _ _ other

variable {comment : List Char} {before : Option Char} {parts : List (Piece Unit)}

/-- The rest of a word behind a character of it, by induction on the parts: removed texts do not
stand there.
-/
theorem takeWhile_isWord_commented (inWord : before.any isWord = true)
    (placed : Placed before parts)
    : (parts.flatMap (Piece.commented comment)).takeWhile isWord
      = (parts.flatMap Piece.text).takeWhile isWord := by
  induction parts generalizing before with
  | nil => rfl
  | cons part parts ih =>
      cases part with
      | hit found source =>
          have free := placed.1
          rw [inWord] at free
          cases free
      | plain c =>
          simp only [List.flatMap_cons, Piece.commented, Piece.text, List.singleton_append,
            List.takeWhile_cons]
          cases word : isWord c with
          | false => rfl
          | true => exact congrArg (c :: ·) (ih (by rwa [Option.any_some]) placed)

/-- The word behind, by induction on the parts: neither a guard nor a comment starts as `else`. -/
theorem elseBehind_commented (slash : comment.head? = some '/') (placed : Placed before parts)
    : elseBehind (parts.flatMap (Piece.commented comment))
      = elseBehind (parts.flatMap Piece.text) := by
  induction parts generalizing before with
  | nil => rfl
  | cons part parts ih =>
      cases part with
      | hit found source =>
          obtain ⟨-, starts, -, -⟩ := placed
          obtain ⟨note, rfl⟩ := List.head?_eq_some_iff.mp slash
          obtain ⟨guard, rfl⟩ := List.head?_eq_some_iff.mp starts
          exact (elseBehind_cons (by decide) (by decide) _).trans
            (elseBehind_cons (by decide) (by decide) _).symm
      | plain c =>
          simp only [elseBehind, List.flatMap_cons, Piece.commented, Piece.text,
            List.singleton_append, List.dropWhile_cons]
          cases blank : isBlank c with
          | true => exact ih placed
          | false =>
              simp only [Bool.false_eq_true, if_false, List.takeWhile_cons]
              cases word : isWord c with
              | false => rfl
              | true =>
                  have starts : (some c).any isWord = true := word
                  rw [takeWhile_isWord_commented starts placed]

section

variable (slash : comment.getLast? = some '/')
  (blocks : ∀ source, .hit () source ∈ parts → source.getLast? = some '}')
include slash blocks

/-- The beginning of a word before a character of it, by induction on the parts from their end:
neither a guard nor a comment ends in a word.
-/
theorem takeWhile_isWord_reverse_commented
    : (parts.flatMap (Piece.commented comment)).reverse.takeWhile isWord
      = (parts.flatMap Piece.text).reverse.takeWhile isWord := by
  induction parts using List.reverseRecOn with
  | nil => rfl
  | append_singleton parts part ih =>
      cases part with
      | hit found source =>
          obtain ⟨note, rfl⟩ := List.getLast?_eq_some_iff.mp slash
          obtain ⟨guard, rfl⟩ := List.getLast?_eq_some_iff.mp (blocks source (by simp))
          simp [Piece.commented, Piece.text, isWord]
      | plain c =>
          have earlier := ih fun source member => blocks source (by simp [member])
          simp only [List.flatMap_append, List.flatMap_singleton, Piece.commented, Piece.text,
            List.reverse_append, List.reverse_singleton, List.singleton_append,
            List.takeWhile_cons, earlier]

/-- The word before, by induction on the parts from their end. -/
theorem elseBefore_commented
    : elseBefore (parts.flatMap (Piece.commented comment))
      = elseBefore (parts.flatMap Piece.text) := by
  induction parts using List.reverseRecOn with
  | nil => rfl
  | append_singleton parts part ih =>
      have earlier : ∀ source, .hit () source ∈ parts → source.getLast? = some '}' :=
        fun source member => blocks source (by simp [member])
      cases part with
      | hit found source =>
          obtain ⟨note, rfl⟩ := List.getLast?_eq_some_iff.mp slash
          obtain ⟨guard, rfl⟩ := List.getLast?_eq_some_iff.mp (blocks source (by simp))
          simp only [List.flatMap_append, List.flatMap_singleton, Piece.commented, Piece.text,
            ← List.append_assoc]
          exact (elseBefore_append (by decide) (by decide) _).trans
            (elseBefore_append (by decide) (by decide) _).symm
      | plain c =>
          simp only [List.flatMap_append, List.flatMap_singleton, Piece.commented, Piece.text,
            elseBefore, List.reverse_append, List.reverse_singleton, List.singleton_append,
            List.dropWhile_cons]
          cases blank : isBlank c with
          | true => exact ih earlier
          | false =>
              simp only [Bool.false_eq_true, if_false, List.takeWhile_cons,
                takeWhile_isWord_reverse_commented slash earlier]

end

/-- A removed text stands next to `else` where its comment does. -/
theorem besideElse_commented_iff (starts : comment.head? = some '/')
    (ends : comment.getLast? = some '/') (placed : Placed none parts)
    : BesideElse (Piece.commented comment) parts ↔ BesideElse Piece.text parts := by
  refine exists_congr fun first => exists_congr fun source => exists_congr fun last =>
    and_congr_right fun split => ?_
  subst split
  obtain ⟨_, -, -, -, later⟩ := placed.later
  have blocks : ∀ source, .hit () source ∈ first → source.getLast? = some '}' :=
    fun source member => (placed.block source (List.mem_append_left _ member)).2
  rw [elseBefore_commented ends blocks, elseBehind_commented starts later]

-----------------------------------------------------------------------------------------
-- Else branches
-----------------------------------------------------------------------------------------

/-- Main statement: the comments of a rewrite stand in the places of the removed guards, and one of
them stands next to `else` exactly where a removed guard stood next to it.
-/
theorem comments_beside_else (text : List Char)
    : ((NullGuards.trace text).flatMap Piece.text = text
        ∧ (NullGuards.trace text).flatMap (Piece.commented NullGuards.comment)
          = NullGuards.rewrite text
        ∧ (BesideElse (Piece.commented NullGuards.comment) (NullGuards.trace text)
          ↔ BesideElse Piece.text (NullGuards.trace text)))
      ∧ (RangeGuards.trace text).flatMap Piece.text = text
        ∧ (RangeGuards.trace text).flatMap (Piece.commented RangeGuards.comment)
          = RangeGuards.rewrite text
        ∧ (BesideElse (Piece.commented RangeGuards.comment) (RangeGuards.trace text)
          ↔ BesideElse Piece.text (RangeGuards.trace text)) := by
  obtain ⟨nullText, nullShown, nullPlaced⟩ := NullGuards.trace_spec text
  obtain ⟨rangeText, rangeShown, rangePlaced⟩ := RangeGuards.trace_spec text
  exact ⟨⟨nullText, nullShown, besideElse_commented_iff rfl (by decide) nullPlaced⟩,
    rangeText, rangeShown, besideElse_commented_iff rfl (by decide) rangePlaced⟩

/-- A guard with an else branch. -/
def guardWithElse : List Char :=
  "if (p == NULL) \x7b return; \x7d else \x7b use(p); \x7d".toList

/-- Its comment stands before the word `else`. -/
theorem guardWithElse_orphaned
    : occurs NullGuards.comment guardWithElse = false
      ∧ NullGuards.rewrite guardWithElse
        = NullGuards.comment ++ " else \x7b use(p); \x7d".toList
      ∧ BesideElse (Piece.commented NullGuards.comment) (NullGuards.trace guardWithElse) := by
  have parts : NullGuards.trace guardWithElse
      = .hit () "if (p == NULL) \x7b return; \x7d".toList
        :: " else \x7b use(p); \x7d".toList.map .plain := by
    rfl
  refine ⟨by decide +kernel, by decide +kernel, [], _, _, parts, .inr (by decide +kernel)⟩

end RangeTuner.Rewrite
