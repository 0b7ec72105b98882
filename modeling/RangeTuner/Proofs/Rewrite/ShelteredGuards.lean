import RangeTuner.Proofs.Rewrite.RemovalTrace
import RangeTuner.Proofs.Text.Lexemes

/-! Guards that are not code. Guards are removed wherever they stand, and a comment takes the place
of each. In a line comment or in a literal it changes no code; in a block comment its end is the end
of both. Main statement: where every removed guard stands in a line comment or in a literal, and no
block comment is left open, the rewrite has the code of the text.
-/

namespace RangeTuner.Rewrite

open RangeTuner.Text

/-- Line comments and literals. -/
def Shelter : Piece Lexeme → Prop
  | .plain _ => False
  | .hit .comment lexeme => "//".toList <+: lexeme
  | .hit (.literal _) _ => True

/-- These parts make up the piece of the source, and removed texts among them are sheltered by it.
-/
structure Holds (parts : List (Piece Unit)) (piece : Piece Lexeme) : Prop where
  text : parts.flatMap Piece.text = piece.text
  shelter : (∃ source, .hit () source ∈ parts) → Shelter piece

/-- Every removed text stands in a line comment or a literal of the source: the parts can be cut
along its code, comments and literals in this way.
-/
def Sheltered (source : List Char) (parts : List (Piece Unit)) : Prop :=
  ∃ groups, groups.flatten = parts ∧ List.Forall₂ Holds groups (Lexeme.idiom.pieces source)

-----------------------------------------------------------------------------------------
-- Guards and comments in a literal
-----------------------------------------------------------------------------------------

/-- The text, in which the first character may be escaped, does not go over the end of a line. -/
def singleLine : Bool → List Char → Bool
  | _, [] => true
  | true, _ :: s => singleLine false s
  | false, c :: s => c != '\n' && singleLine (c == '\\') s

variable {quote : Char} {escaped : Bool} {guard rest : List Char}

/-- A literal that is not closed behind a guard on one line is not closed from it on, by induction
on the guard.
-/
theorem literalFrom_eq_none (brace : quote ≠ '}') (block : guard.getLast? = some '}')
    (single : singleLine escaped guard = true)
    (unclosed : Lexeme.literalFrom quote escaped (guard ++ rest) = none)
    : Lexeme.literalFrom quote false rest = none := by
  induction guard generalizing escaped with
  | nil => cases block
  | cons c guard ih =>
      cases guard with
      | nil =>
          obtain rfl : c = '}' := by simpa using block
          cases escaped <;> simpa [Lexeme.literalFrom, brace.symm] using unclosed
      | cons d guard =>
          rw [List.getLast?_cons_cons] at block
          cases escaped with
          | true => exact ih block single unclosed
          | false =>
              obtain ⟨visible, later⟩ := Bool.and_eq_true_iff.mp single
              rw [List.cons_append, Lexeme.literalFrom] at unclosed
              split_ifs at unclosed with escape ends line
              · rw [escape] at later
                exact ih block later unclosed
              · simp [line] at visible
              · rw [beq_eq_false_iff_ne.mpr escape] at later
                exact ih block later unclosed

/-- A guard in a literal that ends behind it is on one line, and the literal goes on from it, by
induction on the guard.
-/
theorem singleLine_of_closed (brace : quote ≠ '}') (block : guard.getLast? = some '}')
    (closed : Lexeme.literalFrom quote escaped (guard ++ rest) = some [])
    : singleLine escaped guard = true ∧ Lexeme.literalFrom quote false rest = some [] := by
  induction guard generalizing escaped with
  | nil => cases block
  | cons c guard ih =>
      cases guard with
      | nil =>
          obtain rfl : c = '}' := by simpa using block
          cases escaped <;> simp_all [Lexeme.literalFrom, singleLine, brace.symm]
      | cons d guard =>
          rw [List.getLast?_cons_cons] at block
          cases escaped with
          | true => exact ih block closed
          | false =>
              rw [List.cons_append, Lexeme.literalFrom] at closed
              split_ifs at closed with escape ends line
              · obtain ⟨single, behind⟩ := ih block closed
                exact ⟨by rw [singleLine, escape]; exact single, behind⟩
              · cases closed
              · obtain ⟨single, behind⟩ := ih block closed
                refine ⟨?_, behind⟩
                rw [singleLine, beq_eq_false_iff_ne.mpr escape, single, Bool.and_true]
                exact bne_iff_ne.mpr line

/-- Characters that mean nothing in a literal are passed over, by induction on them. -/
theorem literalFrom_inert {inert : List Char} (filled : inert ≠ [])
    (plain : ∀ c ∈ inert, c ≠ '\\' ∧ c ≠ quote ∧ c ≠ '\n')
    : Lexeme.literalFrom quote escaped (inert ++ rest) = Lexeme.literalFrom quote false rest := by
  induction inert generalizing escaped with
  | nil => exact absurd rfl filled
  | cons c inert ih =>
      rw [List.forall_mem_cons] at plain
      obtain ⟨⟨noEscape, noQuote, noLine⟩, plain⟩ := plain
      have step : Lexeme.literalFrom quote escaped (c :: (inert ++ rest))
          = Lexeme.literalFrom quote false (inert ++ rest) := by
        cases escaped <;> simp [Lexeme.literalFrom, noEscape, noQuote, noLine]
      rw [List.cons_append, step]
      cases inert with
      | nil => rfl
      | cons d inert => exact ih (List.cons_ne_nil d inert) plain

-----------------------------------------------------------------------------------------
-- Parts of a literal
-----------------------------------------------------------------------------------------

/-- A text that means nothing in a line comment and in a literal. -/
structure Inert (comment : List Char) : Prop where
  filled : comment ≠ []
  plain : ∀ c ∈ comment, c ∉ ['\\', '"', '\'', '\n']

/-- Removed texts start and end as guards. -/
def Blocks (parts : List (Piece Unit)) : Prop :=
  ∀ source, .hit () source ∈ parts → source.head? = some 'i' ∧ source.getLast? = some '}'

theorem Blocks.cons {part : Piece Unit} {parts : List (Piece Unit)} (blocks : Blocks (part :: parts))
    : Blocks parts :=
  fun source member => blocks source (List.mem_cons_of_mem _ member)

theorem Blocks.left {parts others : List (Piece Unit)} (blocks : Blocks (parts ++ others))
    : Blocks parts :=
  fun source member => blocks source (List.mem_append_left _ member)

theorem Blocks.right {parts others : List (Piece Unit)} (blocks : Blocks (parts ++ others))
    : Blocks others :=
  fun source member => blocks source (List.mem_append_right _ member)

theorem Blocks.eq_nil {parts : List (Piece Unit)} (blocks : Blocks parts)
    (empty : parts.flatMap Piece.text = [])
    : parts = [] := by
  cases parts with
  | nil => rfl
  | cons part parts =>
      obtain ⟨none, -⟩ := List.append_eq_nil_iff.mp empty
      cases part with
      | plain c => cases none
      | hit found source =>
          obtain rfl : source = [] := none
          cases (blocks [] (by simp)).1

/-- What starts otherwise than a guard starts with a character outside the removed texts. -/
theorem Blocks.exists_plain {parts : List (Piece Unit)} (blocks : Blocks parts) {c : Char}
    {s : List Char} (text : parts.flatMap Piece.text = c :: s) (other : c ≠ 'i')
    : ∃ more, parts = .plain c :: more ∧ more.flatMap Piece.text = s := by
  cases parts with
  | nil => cases text
  | cons part parts =>
      cases part with
      | plain d =>
          obtain ⟨rfl, same⟩ := List.cons.inj text
          exact ⟨parts, rfl, same⟩
      | hit found source =>
          obtain ⟨more, rfl⟩ := List.head?_eq_some_iff.mp (blocks source (by simp)).1
          exact absurd (List.cons.inj text).1.symm other

theorem singleLine_escaped (starts : guard.head? = some 'i')
    : singleLine escaped guard = singleLine false guard := by
  obtain ⟨more, rfl⟩ := List.head?_eq_some_iff.mp starts
  cases escaped <;> rfl

section

variable {comment : List Char} {parts : List (Piece Unit)}
  (mark : quote = '"' ∨ quote = '\'') (inert : Inert comment) (blocks : Blocks parts)
include mark

theorem ne_brace_of_mark : quote ≠ '}' := by
  rcases mark with rfl | rfl <;> decide

include inert

theorem literalFrom_note
    : Lexeme.literalFrom quote escaped (comment ++ rest)
      = Lexeme.literalFrom quote false rest := by
  refine literalFrom_inert inert.filled fun c member => ?_
  have plain := inert.plain c member
  rcases mark with rfl | rfl <;> simp_all

include blocks

/-- A literal that is open stays open, by induction on the parts behind the quote. -/
theorem literalFrom_commented_none
    (single : ∀ source, .hit () source ∈ parts → singleLine false source = true)
    (unclosed : Lexeme.literalFrom quote escaped (parts.flatMap Piece.text) = none)
    : Lexeme.literalFrom quote escaped (parts.flatMap (Piece.commented comment)) = none := by
  induction parts generalizing escaped with
  | nil => exact unclosed
  | cons part parts ih =>
      have others : ∀ source, .hit () source ∈ parts → singleLine false source = true :=
        fun source member => single source (List.mem_cons_of_mem _ member)
      cases part with
      | hit found source =>
          obtain ⟨starts, ends⟩ := blocks source (by simp)
          have single := single source (by simp)
          rw [← singleLine_escaped starts] at single
          rw [List.flatMap_cons, Piece.commented, literalFrom_note mark inert]
          exact ih blocks.cons others
            (literalFrom_eq_none (ne_brace_of_mark mark) ends single unclosed)
      | plain c =>
          cases escaped with
          | true => exact ih blocks.cons others unclosed
          | false =>
              simp only [List.flatMap_cons, Piece.text, Piece.commented, List.singleton_append,
                Lexeme.literalFrom] at unclosed ⊢
              split_ifs at unclosed ⊢
              · exact ih blocks.cons others unclosed
              · rfl
              · exact ih blocks.cons others unclosed

/-- A literal that ends with the parts ends with them, by induction on the parts behind the quote.
-/
theorem literalFrom_commented_some
    (closed : Lexeme.literalFrom quote escaped (parts.flatMap Piece.text) = some [])
    : Lexeme.literalFrom quote escaped (parts.flatMap (Piece.commented comment)) = some []
      ∧ ∀ source, .hit () source ∈ parts → singleLine false source = true := by
  induction parts generalizing escaped with
  | nil => cases escaped <;> cases closed
  | cons part parts ih =>
      cases part with
      | hit found source =>
          obtain ⟨starts, ends⟩ := blocks source (by simp)
          obtain ⟨single, behind⟩ := singleLine_of_closed (ne_brace_of_mark mark) ends closed
          obtain ⟨closed, others⟩ := ih blocks.cons behind
          rw [singleLine_escaped starts] at single
          refine ⟨by rwa [List.flatMap_cons, Piece.commented, literalFrom_note mark inert], ?_⟩
          simpa [single] using others
      | plain c =>
          simp only [List.mem_cons, reduceCtorEq, false_or]
          cases escaped with
          | true => exact ih blocks.cons closed
          | false =>
              simp only [List.flatMap_cons, Piece.text, Piece.commented, List.singleton_append,
                Lexeme.literalFrom] at closed ⊢
              split_ifs at closed ⊢
              · exact ih blocks.cons closed
              · obtain rfl := blocks.cons.eq_nil (Option.some.inj closed)
                exact ⟨rfl, by simp⟩
              · exact ih blocks.cons closed

end

-----------------------------------------------------------------------------------------
-- Lexemes with removed texts
-----------------------------------------------------------------------------------------

/-- With comments for its removed texts a source starts as before and has the same code, if it
leaves no block comment open.
-/
structure Kept (comment source : List Char) (parts : List (Piece Unit)) : Prop where
  text : parts.flatMap Piece.text = source
  head : (parts.flatMap (Piece.commented comment)).head? = source.head?
  code : occurs "/*".toList (clean source) = false
    → clean (parts.flatMap (Piece.commented comment)) = clean source
  single : ∀ guard, .hit () guard ∈ parts → singleLine false guard = true

variable {comment source : List Char} {parts group : List (Piece Unit)}

/-- A character of code stays one: what follows it starts as before, and an open quote stays open.
-/
theorem Kept.cons {c : Char} (inert : Inert comment) (blocks : Blocks parts)
    (kept : Kept comment source parts) (code : Lexeme.scan (c :: source) = none)
    : Kept comment (c :: source) (.plain c :: parts) := by
  obtain ⟨open_, slash⟩ := Lexeme.of_scan_cons code
  refine ⟨congrArg (c :: ·) kept.text, rfl, fun closed => ?_, by simpa using kept.single⟩
  rw [clean_cons code] at closed ⊢
  have unread : Lexeme.scan (c :: parts.flatMap (Piece.commented comment)) = none := by
    refine Lexeme.scan_cons (fun mark => ?_) fun isSlash => ?_
    · refine literalFrom_commented_none mark inert blocks kept.single ?_
      rw [kept.text]
      exact open_ mark
    · rw [kept.head]
      refine ⟨slash isSlash, fun star => ?_⟩
      obtain ⟨rest, rfl⟩ := List.head?_eq_some_iff.mp star
      have opens : clean ('*' :: rest) = '*' :: clean rest := clean_cons rfl
      have opened : occurs "/*".toList ('/' :: '*' :: clean rest) = true :=
        occurs_iff_isInfix.mpr (List.prefix_append _ _).isInfix
      rw [isSlash, opens, opened] at closed
      cases closed
  rw [List.flatMap_cons, Piece.commented, List.singleton_append, clean_cons unread,
    kept.code (not_occurs_of_append (s := [c]) closed)]

theorem singleLine_of_not_mem {s : List Char} (single : '\n' ∉ s)
    : singleLine escaped s = true := by
  induction s generalizing escaped with
  | nil => cases escaped <;> rfl
  | cons c s ih =>
      rw [List.mem_cons, not_or] at single
      obtain ⟨visible, single⟩ := single
      cases escaped with
      | true => exact ih single
      | false => simp [singleLine, ih single, Ne.symm visible]

/-- Parts without removed texts show them as they were. -/
theorem flatMap_commented_of_plain (plain : ¬ ∃ guard, .hit () guard ∈ parts)
    : parts.flatMap (Piece.commented comment) = parts.flatMap Piece.text := by
  refine List.flatMap_congr fun part member => ?_
  cases part with
  | plain c => rfl
  | hit found guard => exact absurd ⟨guard, member⟩ plain

/-- A character of code is a part of its own. -/
theorem Holds.eq_plain {c : Char} (blocks : Blocks group) (holds : Holds group (.plain c))
    : group = [.plain c] := by
  obtain ⟨text, shelter⟩ := holds
  cases group with
  | nil => cases text
  | cons part more =>
      cases part with
      | hit found guard => exact (shelter ⟨guard, by simp⟩).elim
      | plain d =>
          obtain ⟨rfl, rest⟩ := List.cons.inj text
          rw [blocks.cons.eq_nil rest]

/-- A lexeme stays one of its kind: removed texts stand in line comments and in literals only, and
the comments in their places end neither.
-/
theorem Holds.formed {kind : Lexeme} {lexeme rest : List Char} (inert : Inert comment)
    (blocks : Blocks group) (holds : Holds group (.hit kind lexeme))
    (formed : Lexeme.Formed kind lexeme source) (head : rest.head? = source.head?)
    : Lexeme.Formed kind (group.flatMap (Piece.commented comment)) rest
      ∧ ∀ guard, .hit () guard ∈ group → singleLine false guard = true := by
  obtain ⟨text, shelter⟩ := holds
  rw [Piece.text] at text
  cases formed with
  | line single ended =>
      rename_i content
      obtain ⟨behind, rfl, slash⟩ := blocks.exists_plain text (by decide)
      obtain ⟨more, rfl, inside⟩ := blocks.cons.exists_plain slash (by decide)
      have within : ∀ part ∈ more, part.text ⊆ content := fun part member =>
        inside ▸ fun c known => List.mem_flatMap.mpr ⟨part, member, known⟩
      have single' : '\n' ∉ more.flatMap (Piece.commented comment) := by
        intro member
        obtain ⟨part, known, line⟩ := List.mem_flatMap.mp member
        cases part with
        | plain c => exact single (within _ known line)
        | hit found guard => exact inert.plain _ line (by simp)
      have formed' : Lexeme.Formed .comment
          (lineComment (more.flatMap (Piece.commented comment))) rest :=
        .line single' (head ▸ ended)
      refine ⟨formed', fun guard member => ?_⟩
      have known : .hit () guard ∈ more := by simpa using member
      exact singleLine_of_not_mem fun line => single (within _ known line)
  | block free =>
      have plain : ¬ ∃ guard, .hit () guard ∈ group := by
        intro removed
        have starts := shelter removed
        simp [Shelter, blockComment] at starts
      rw [flatMap_commented_of_plain plain, text]
      exact ⟨.block free, fun guard member => absurd ⟨guard, member⟩ plain⟩
  | literal mark closed =>
      rename_i quote body
      obtain ⟨more, rfl, inside⟩ :=
        blocks.exists_plain text (by rcases mark with rfl | rfl <;> decide)
      rw [← inside] at closed
      obtain ⟨closed, single⟩ := literalFrom_commented_some mark inert blocks.cons closed
      exact ⟨.literal mark closed, by simpa using single⟩

/-- A lexeme with removed texts in front of a source. -/
theorem Kept.append {kind : Lexeme} {lexeme : List Char} (inert : Inert comment)
    (blocks : Blocks group) (holds : Holds group (.hit kind lexeme))
    (kept : Kept comment source parts) (formed : Lexeme.Formed kind lexeme source)
    : Kept comment (lexeme ++ source) (group ++ parts) := by
  obtain ⟨formed', single⟩ := holds.formed inert blocks formed kept.head
  refine ⟨by rw [List.flatMap_append, holds.text, kept.text, Piece.text], ?_, fun closed => ?_, ?_⟩
  · obtain ⟨c, more, rfl, other⟩ := formed.exists_cons
    obtain ⟨behind, rfl, -⟩ := blocks.exists_plain holds.text (by rintro rfl; simp at other)
    rfl
  · rw [clean_append formed] at closed ⊢
    rw [List.flatMap_append, clean_append formed', kept.code (not_occurs_of_append closed)]
  · intro guard member
    rcases List.mem_append.mp member with inside | behind
    · exact single guard inside
    · exact kept.single guard behind

/-- A source keeps its code where its removed texts are sheltered, by induction on the source. -/
theorem kept_of_sheltered (inert : Inert comment) (source : List Char)
    : ∀ parts, Blocks parts → Sheltered source parts → Kept comment source parts := by
  induction source using Lexeme.source_induction with
  | nil =>
      rintro _ - ⟨groups, rfl, along⟩
      obtain rfl := List.forall₂_nil_right_iff.mp along
      exact ⟨rfl, rfl, fun _ => rfl, by simp⟩
  | code c source code ih =>
      rintro _ blocks ⟨groups, rfl, along⟩
      rw [Lexeme.pieces_cons code] at along
      obtain ⟨group, groups, holds, later, rfl⟩ := List.forall₂_cons_right_iff.mp along
      rw [List.flatten_cons] at blocks ⊢
      obtain rfl := holds.eq_plain blocks.left
      exact .cons inert blocks.right (ih _ blocks.right ⟨groups, rfl, later⟩) code
  | lexeme kind lexeme source formed ih =>
      rintro _ blocks ⟨groups, rfl, along⟩
      rw [Lexeme.pieces_append formed] at along
      obtain ⟨group, groups, holds, later, rfl⟩ := List.forall₂_cons_right_iff.mp along
      rw [List.flatten_cons] at blocks ⊢
      exact .append inert blocks.left holds (ih _ blocks.right ⟨groups, rfl, later⟩) formed

-----------------------------------------------------------------------------------------
-- Both templates
-----------------------------------------------------------------------------------------

theorem inert_of_all {note : List Char} (filled : note ≠ [])
    (plain : (note.all fun c => decide (c ∉ ['\\', '"', '\'', '\n'])) = true)
    : Inert note :=
  ⟨filled, fun c member => of_decide_eq_true (List.all_eq_true.mp plain c member)⟩

/-- Main statement: where every removed guard stands in a line comment or a literal, and no block
comment is left open, the rewrite of a text has the code of the text.
-/
theorem clean_rewrite_of_sheltered (text : List Char)
    (closed : occurs "/*".toList (clean text) = false)
    : (Sheltered text (NullGuards.trace text)
        → clean (NullGuards.rewrite text) = clean text)
      ∧ (Sheltered text (RangeGuards.trace text)
        → clean (RangeGuards.rewrite text) = clean text) := by
  refine ⟨fun sheltered => ?_, fun sheltered => ?_⟩
  · obtain ⟨-, shown, placed⟩ := NullGuards.trace_spec text
    have inert : Inert NullGuards.comment := inert_of_all (by decide) (by decide)
    rw [← shown]
    exact (kept_of_sheltered inert text _ placed.block sheltered).code closed
  · obtain ⟨-, shown, placed⟩ := RangeGuards.trace_spec text
    have inert : Inert RangeGuards.comment := inert_of_all (by decide) (by decide)
    rw [← shown]
    exact (kept_of_sheltered inert text _ placed.block sheltered).code closed

/-- A source that is one line comment shelters everything. -/
theorem sheltered_of_lineComment {content : List Char} (single : '\n' ∉ content)
    {parts : List (Piece Unit)} (text : parts.flatMap Piece.text = lineComment content)
    : Sheltered (lineComment content) parts := by
  have formed : Lexeme.Formed .comment (lineComment content) [] := .line single rfl
  have cut := Lexeme.pieces_append formed
  rw [List.append_nil] at cut
  refine ⟨[parts], by simp, ?_⟩
  rw [cut]
  exact .cons ⟨text, fun _ => List.prefix_append _ _⟩ .nil

/-- Guards of both kinds in a line comment. -/
def guardsInLineComment : List Char :=
  lineComment " if (p == NULL) \x7b return; \x7d if (lat < -90 || lat > 90) \x7b return; \x7d".toList

/-- They are removed, and no code changes. -/
theorem clean_rewrite_of_guardsInLineComment
    : occurs "/*".toList (clean guardsInLineComment) = false
      ∧ Sheltered guardsInLineComment (NullGuards.trace guardsInLineComment)
      ∧ Sheltered guardsInLineComment (RangeGuards.trace guardsInLineComment)
      ∧ clean (NullGuards.rewrite guardsInLineComment) = clean guardsInLineComment
      ∧ clean (RangeGuards.rewrite guardsInLineComment) = clean guardsInLineComment := by
  have closed : occurs "/*".toList (clean guardsInLineComment) = false := by decide +kernel
  have nulls : Sheltered guardsInLineComment (NullGuards.trace guardsInLineComment) :=
    sheltered_of_lineComment (by decide) (NullGuards.trace_spec guardsInLineComment).1
  have ranges : Sheltered guardsInLineComment (RangeGuards.trace guardsInLineComment) :=
    sheltered_of_lineComment (by decide) (RangeGuards.trace_spec guardsInLineComment).1
  obtain ⟨ofNulls, ofRanges⟩ := clean_rewrite_of_sheltered guardsInLineComment closed
  exact ⟨closed, nulls, ranges, ofNulls nulls, ofRanges ranges⟩

/-- A guard in a block comment. -/
def guardInBlockComment : List Char :=
  blockComment " if (p == NULL) \x7b return; \x7d ".toList

/-- The source has no code, and the end of the comment is code of the rewrite. -/
theorem guardInBlockComment_uncovered
    : (∀ idiom ∈ NullGuards.idioms, idiom.occursIn (clean guardInBlockComment) = false)
      ∧ clean guardInBlockComment = []
      ∧ clean (NullGuards.rewrite guardInBlockComment) = " */".toList := by
  refine ⟨?_, by decide +kernel, by decide +kernel⟩
  decide +kernel

end RangeTuner.Rewrite
