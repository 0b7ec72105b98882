import Mathlib.Tactic.SplitIfs
import RangeTuner.Proofs.Source.Comments

/-! The lexemes of a source. A source is cut into characters of code, comments and literals, and
cleaning goes over it in the same way. Main statements: what the lexemes are, and how a source that
starts with one of them, or with a character of code, is cut and cleaned.
-/

namespace RangeTuner.Text

/-- What does not occur in a text does not occur in the rest of it. -/
theorem not_occurs_of_append {part s t : List Char} (absent : occurs part (s ++ t) = false)
    : occurs part t = false := by
  rw [← Bool.not_eq_true] at absent ⊢
  intro found
  exact absent <| occurs_of_infix found (List.suffix_append s t).isInfix

/-- What is found first in a text is not found before. -/
theorem not_occurs_before {part s before rest : List Char} (filled : part ≠ [])
    (first : splitAtFirst? part s = some (before, rest))
    : occurs part before = false := by
  rw [← Bool.not_eq_true]
  intro earlier
  obtain ⟨⟨start, finish⟩, split⟩ := Option.isSome_iff_exists.mp earlier
  have again := splitAtFirst?_append split (part ++ rest)
  rw [← eq_append_of_splitAtFirst? first, first] at again
  obtain ⟨rfl, -⟩ := Prod.mk.inj (Option.some.inj again)
  have longer := congrArg List.length (eq_append_of_splitAtFirst? split)
  have positive := List.length_pos_iff.mpr filled
  simp only [List.length_append] at longer
  omega

namespace Lexeme

-----------------------------------------------------------------------------------------
-- Literals
-----------------------------------------------------------------------------------------

/-- The text after the closing quote of a literal, where the next character may be escaped. -/
def literalFrom (quote : Char) : Bool → List Char → Option (List Char)
  | _, [] => none
  | true, _ :: s => literalFrom quote false s
  | false, c :: s =>
      if c = '\\' then literalFrom quote true s
      else if c = quote then some s
      else if c = '\n' then none
      else literalFrom quote false s

theorem afterLiteral?_eq (quote : Char) (s : List Char)
    : afterLiteral? quote s = literalFrom quote false s := by
  have plain : ∀ {c : Char} {s : List Char}, (c = '\\' → s = [] → False)
      → (∀ d t, c = '\\' → s = d :: t → False) → c ≠ '\\' := by
    rintro c s single escape rfl
    cases s with
    | nil => exact single rfl rfl
    | cons d s => exact escape d s rfl rfl
  induction s using afterLiteral?.induct quote with
  | case1 => rfl
  | case2 => rfl
  | case3 c s ih => simpa [afterLiteral?, literalFrom] using ih
  | case4 s single escape => simp [afterLiteral?, literalFrom, plain single escape]
  | case5 s single escape => simp [afterLiteral?, literalFrom]
  | case6 c s single escape other line ih =>
      simpa [afterLiteral?, literalFrom, plain single escape, other, line] using ih

/-- A literal that is closed is closed whatever follows it, by induction on the text. -/
theorem literalFrom_append {quote : Char} {escaped : Bool} {s rest : List Char}
    (closed : literalFrom quote escaped s = some rest) (t : List Char)
    : literalFrom quote escaped (s ++ t) = some (rest ++ t) := by
  induction s generalizing escaped with
  | nil => cases escaped <;> cases closed
  | cons c s ih =>
      cases escaped with
      | true => exact ih closed
      | false =>
          simp only [literalFrom, List.cons_append] at closed ⊢
          split_ifs at closed ⊢ with escape ends line
          · exact ih closed
          · rw [Option.some.inj closed]
          · exact ih closed

/-- A closed literal is a text and the text behind it, by induction on the text. -/
theorem exists_of_literalFrom {quote : Char} {escaped : Bool} {s rest : List Char}
    (closed : literalFrom quote escaped s = some rest)
    : ∃ body, s = body ++ rest ∧ literalFrom quote escaped body = some [] := by
  induction s generalizing escaped with
  | nil => cases escaped <;> cases closed
  | cons c s ih =>
      cases escaped with
      | true =>
          obtain ⟨body, rfl, inside⟩ := ih closed
          exact ⟨c :: body, rfl, inside⟩
      | false =>
          simp only [literalFrom] at closed
          split_ifs at closed with escape ends line
          · obtain ⟨body, rfl, inside⟩ := ih closed
            exact ⟨c :: body, rfl, by simp [literalFrom, escape, inside]⟩
          · obtain rfl := Option.some.inj closed
            exact ⟨[c], rfl, by simp [literalFrom, escape, ← ends]⟩
          · obtain ⟨body, rfl, inside⟩ := ih closed
            exact ⟨c :: body, rfl, by simp [literalFrom, escape, ends, line, inside]⟩

-----------------------------------------------------------------------------------------
-- What lexemes are
-----------------------------------------------------------------------------------------

/-- A lexeme of some kind and the text behind it. -/
inductive Formed : Lexeme → List Char → List Char → Prop
  | line {content rest : List Char} (single : '\n' ∉ content)
    (ended : rest.head?.all (· == '\n') = true)
    : Formed .comment (lineComment content) rest
  | block {content rest : List Char} (inert : occurs ['*', '/'] content = false)
    : Formed .comment (blockComment content) rest
  | literal {quote : Char} {body rest : List Char} (mark : quote = '"' ∨ quote = '\'')
    (closed : literalFrom quote false body = some [])
    : Formed (.literal quote) (quote :: body) rest

theorem Formed.filled {kind : Lexeme} {lexeme rest : List Char}
    (formed : Formed kind lexeme rest)
    : lexeme ≠ [] := by
  cases formed <;> exact List.cons_ne_nil _ _

/-- A lexeme starts with a slash or a quote. -/
theorem Formed.exists_cons {kind : Lexeme} {lexeme rest : List Char}
    (formed : Formed kind lexeme rest)
    : ∃ c more, lexeme = c :: more ∧ c ∈ ['/', '"', '\''] := by
  cases formed with
  | line | block => exact ⟨'/', _, rfl, by simp⟩
  | literal mark => exact ⟨_, _, rfl, by simpa using .inr mark⟩

/-- Nothing that is left of a lexeme opens a comment. -/
theorem Formed.slash_not_mem_remnant {kind : Lexeme} {lexeme rest : List Char}
    (formed : Formed kind lexeme rest)
    : '/' ∉ kind.remnant := by
  cases formed with
  | line | block => exact List.not_mem_nil
  | literal mark => rcases mark with rfl | rfl <;> decide

/-- A line comment goes up to the end of its line. -/
theorem dropWhile_line {content rest : List Char} (single : '\n' ∉ content)
    (ended : rest.head?.all (· == '\n') = true)
    : (content ++ rest).dropWhile (· ≠ '\n') = rest := by
  rw [List.dropWhile_append_of_pos fun c member => ?_]
  · cases rest with
    | nil => rfl
    | cons c rest => simp_all
  · simpa using fun same : c = '\n' => single (same ▸ member)

theorem head?_dropWhile_line (s : List Char)
    : (s.dropWhile (· ≠ '\n')).head?.all (· == '\n') = true := by
  have stops := List.head?_dropWhile_not (· ≠ '\n') s
  cases first : (s.dropWhile (· ≠ '\n')).head? with
  | none => rfl
  | some c =>
      rw [first] at stops
      simpa using stops

/-- A lexeme is read where it is formed. -/
theorem Formed.scan {kind : Lexeme} {lexeme rest : List Char}
    (formed : Formed kind lexeme rest)
    : scan (lexeme ++ rest) = some (kind, rest) := by
  cases formed with
  | line single ended =>
      simp only [lineComment, List.cons_append, Lexeme.scan, dropWhile_line single ended]
  | block inert =>
      simp [blockComment, Lexeme.scan, splitAtFirst?_content inert]
  | literal mark closed =>
      rename_i quote body
      have reads : afterLiteral? quote (body ++ rest) = some rest := by
        rw [afterLiteral?_eq, literalFrom_append closed, List.nil_append]
      rcases mark with rfl | rfl <;> simp [Lexeme.scan, reads]

/-- What is read is a formed lexeme. -/
theorem exists_of_scan {s rest : List Char} {kind : Lexeme} (scanned : scan s = some (kind, rest))
    : ∃ lexeme, s = lexeme ++ rest ∧ Formed kind lexeme rest := by
  have literal : ∀ quote t, quote = '"' ∨ quote = '\''
      → (afterLiteral? quote t).map (Lexeme.literal quote, ·) = some (kind, rest)
      → ∃ lexeme, quote :: t = lexeme ++ rest ∧ Formed kind lexeme rest := by
    intro quote t mark read
    obtain ⟨rest', closed, same⟩ := Option.map_eq_some_iff.mp read
    obtain ⟨rfl, rfl⟩ := Prod.mk.inj same
    rw [afterLiteral?_eq] at closed
    obtain ⟨body, rfl, inside⟩ := exists_of_literalFrom closed
    exact ⟨quote :: body, rfl, .literal mark inside⟩
  fun_cases Lexeme.scan s with
  | case1 t =>
      obtain ⟨rfl, rfl⟩ := Prod.mk.inj (Option.some.inj scanned)
      refine ⟨lineComment (t.takeWhile (· ≠ '\n')), by simp [lineComment], .line ?_ ?_⟩
      · intro member
        simpa using List.all_eq_true.mp List.all_takeWhile _ member
      · exact head?_dropWhile_line t
  | case2 t =>
      obtain ⟨⟨content, rest'⟩, split, same⟩ := Option.map_eq_some_iff.mp scanned
      obtain ⟨rfl, rfl⟩ := Prod.mk.inj same
      have whole := eq_append_of_splitAtFirst? split
      exact ⟨blockComment content, by simp [blockComment, whole],
        .block (not_occurs_before (by simp) split)⟩
  | case3 t => exact literal '"' t (.inl rfl) scanned
  | case4 t => exact literal '\'' t (.inr rfl) scanned
  | case5 => simp_all [Lexeme.scan]

/-- A character of code is no quote of a closed literal and does not open a line comment. -/
theorem of_scan_cons {c : Char} {s : List Char} (code : Lexeme.scan (c :: s) = none)
    : (c = '"' ∨ c = '\'' → literalFrom c false s = none) ∧ (c = '/' → s.head? ≠ some '/') := by
  refine ⟨?_, ?_⟩
  · rintro (rfl | rfl) <;> simpa [Lexeme.scan, afterLiteral?_eq] using code
  · rintro rfl
    cases s with
    | nil => simp
    | cons d s =>
        rintro same
        obtain rfl := Option.some.inj same
        cases code

/-- An open quote, a slash that opens no comment and any other character are code. -/
theorem scan_cons {c : Char} {s : List Char}
    (quote : c = '"' ∨ c = '\'' → literalFrom c false s = none)
    (slash : c = '/' → s.head? ≠ some '/' ∧ s.head? ≠ some '*')
    : Lexeme.scan (c :: s) = none := by
  unfold Lexeme.scan
  split
  · next t same =>
      obtain ⟨rfl, rfl⟩ := List.cons.inj same
      exact absurd rfl (slash rfl).1
  · next t same =>
      obtain ⟨rfl, rfl⟩ := List.cons.inj same
      exact absurd rfl (slash rfl).2
  · next t same =>
      obtain ⟨rfl, rfl⟩ := List.cons.inj same
      rw [afterLiteral?_eq, quote (.inl rfl)]
      rfl
  · next t same =>
      obtain ⟨rfl, rfl⟩ := List.cons.inj same
      rw [afterLiteral?_eq, quote (.inr rfl)]
      rfl
  · rfl

-----------------------------------------------------------------------------------------
-- Cutting and cleaning
-----------------------------------------------------------------------------------------

theorem pieces_cons {c : Char} {s : List Char} (code : Lexeme.scan (c :: s) = none)
    : idiom.pieces (c :: s) = .plain c :: idiom.pieces s :=
  Idiom.pieces_cons_of_scan rfl code

theorem pieces_append {kind : Lexeme} {lexeme rest : List Char}
    (formed : Formed kind lexeme rest)
    : idiom.pieces (lexeme ++ rest) = .hit kind lexeme :: idiom.pieces rest :=
  Idiom.pieces_append_of_scan rfl formed.filled formed.scan

/-- A property of sources holds if it is kept by a character of code and by a lexeme in front of a
source, by induction on the length.
-/
theorem source_induction {motive : List Char → Prop} (nil : motive [])
    (code : ∀ c s, Lexeme.scan (c :: s) = none → motive s → motive (c :: s))
    (lexeme : ∀ kind lexeme rest, Formed kind lexeme rest → motive rest
      → motive (lexeme ++ rest))
    (s : List Char)
    : motive s := by
  induction size : s.length using Nat.strongRecOn generalizing s with
  | ind size ih =>
      subst size
      cases s with
      | nil => exact nil
      | cons c s =>
          cases scanned : Lexeme.scan (c :: s) with
          | none => exact code c s scanned (ih s.length (by simp) s rfl)
          | some found =>
              obtain ⟨text, whole, formed⟩ := exists_of_scan scanned
              have shorter : found.2.length < (c :: s).length := by
                rw [whole, List.length_append]
                have positive := List.length_pos_iff.mpr formed.filled
                omega
              rw [whole]
              exact lexeme _ _ _ formed (ih found.2.length shorter found.2 rfl)

end Lexeme

theorem clean_nil : clean [] = [] := rfl

theorem clean_cons {c : Char} {s : List Char} (code : Lexeme.scan (c :: s) = none)
    : clean (c :: s) = c :: clean s := by
  rw [clean, clean, Idiom.replace_eq_replaced, Idiom.replace_eq_replaced, Lexeme.pieces_cons code]
  rfl

theorem clean_append {kind : Lexeme} {lexeme rest : List Char}
    (formed : Lexeme.Formed kind lexeme rest)
    : clean (lexeme ++ rest) = kind.remnant ++ clean rest := by
  rw [clean, clean, Idiom.replace_eq_replaced, Idiom.replace_eq_replaced,
    Lexeme.pieces_append formed]
  rfl

/-- A character that belongs to no comment, opens no literal and escapes nothing. -/
def isPlain (c : Char) : Bool :=
  c ≠ '"' && c ≠ '\'' && c ≠ '/' && c ≠ '\\'

/-- The characters of a class are plain when the others are not of it. -/
theorem plain_of_class {allowed : Char → Prop} (double : ¬ allowed '"')
    (single : ¬ allowed '\'') (slash : ¬ allowed '/') (escape : ¬ allowed '\\') {s : List Char}
    (all : ∀ c ∈ s, allowed c)
    : s.all isPlain = true := by
  refine List.all_eq_true.mpr fun c member => ?_
  simp only [isPlain, Bool.and_eq_true, decide_eq_true_eq]
  refine ⟨⟨⟨?_, ?_⟩, ?_⟩, ?_⟩
  · rintro rfl
    exact double (all _ member)
  · rintro rfl
    exact single (all _ member)
  · rintro rfl
    exact slash (all _ member)
  · rintro rfl
    exact escape (all _ member)

theorem Lexeme.scan_of_isPlain {c : Char} (plain : isPlain c = true) (s : List Char)
    : Lexeme.scan (c :: s) = none := by
  refine Lexeme.scan_cons ?_ ?_
  · rintro (rfl | rfl) <;> exact absurd plain (by decide)
  · rintro rfl
    exact absurd plain (by decide)

/-- Plain characters are code, by induction on them. -/
theorem clean_plain_append {s : List Char} (plain : s.all isPlain = true) (t : List Char)
    : clean (s ++ t) = s ++ clean t := by
  induction s with
  | nil => rfl
  | cons c s ih =>
      rw [List.all_cons, Bool.and_eq_true] at plain
      rw [List.cons_append, clean_cons (Lexeme.scan_of_isPlain plain.1 _), ih plain.2,
        List.cons_append]

end RangeTuner.Text
