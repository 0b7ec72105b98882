import RangeTuner.Proofs.Text.Places
import RangeTuner.Proofs.Text.Tokens

/-! Idioms whose hits start and end at the edges of words. A text is cut by such an idiom word by
word, so what becomes of it can be told by induction on its tokens, and scanners that read words
and signs one after the other are followed through the tokens of the text.
-/

namespace RangeTuner.Text

-----------------------------------------------------------------------------------------
-- Pieces, word by word
-----------------------------------------------------------------------------------------

/-- Hits of the idiom start with a word character and do not end inside a word. -/
structure Idiom.WordBound {α : Type} (idiom : Idiom α) : Prop where
  opening : idiom.opening = .wordStart
  bounds : ∀ s found rest, idiom.scan s = some (found, rest)
    → ∃ lexeme, s = lexeme ++ rest ∧ lexeme.head?.any isWord = true
      ∧ (lexeme.getLast?.any isWord = false ∨ rest.head?.any isWord = false)

/-- Characters outside hits stay. -/
theorem flatMap_replaced_plain {α : Type} (new : α → List Char) (word : List Char)
    : (word.map Piece.plain).flatMap (Piece.replaced new) = word := by
  rw [List.flatMap_map]
  exact List.flatMap_singleton' word

namespace Idiom

variable {α : Type} {idiom : Idiom α}

/-- Inside a word no hit starts, by induction on the rest of the word. -/
theorem WordBound.piecesFrom_word (bound : idiom.WordBound) {word : List Char}
    (all : ∀ c ∈ word, isWord c = true) {before : Option Char} (inside : before.any isWord = true)
    (s : List Char)
    : idiom.piecesFrom 0 before (word ++ s)
      = word.map .plain ++ idiom.piecesFrom 0 (word.getLast?.or before) s := by
  induction word generalizing before with
  | nil => rfl
  | cons c word ih =>
      rw [List.forall_mem_cons] at all
      have unread : idiom.read? before (c :: (word ++ s)) = none := by
        simp [read?, bound.opening, Opening.admits, inside]
      simp only [List.cons_append, piecesFrom, unread, List.map_cons, getLast?_cons_or]
      rw [ih all.2 (by simpa using all.1)]

theorem WordBound.scan_of_outside (bound : idiom.WordBound) {s : List Char}
    (outside : s.head?.any isWord = false)
    : idiom.scan s = none := by
  refine Option.eq_none_iff_forall_ne_some.mpr ?_
  intro ⟨found, rest⟩ scanned
  obtain ⟨lexeme, rfl, first, -⟩ := bound.bounds _ _ _ scanned
  rw [List.head?_append_of_ne_nil _ (by rintro rfl; cases first), first] at outside
  cases outside

/-- At the edge of a word it does not matter what stands before. -/
theorem WordBound.piecesFrom_edge (bound : idiom.WordBound) {before : Option Char} {s : List Char}
    (edge : before.any isWord = false ∨ s.head?.any isWord = false)
    : idiom.piecesFrom 0 before s = idiom.pieces s := by
  rcases edge with free | outside
  · refine piecesFrom_congr ?_ 0 s
    simp [bound.opening, Opening.admits, free]
  · cases s with
    | nil => rfl
    | cons c s =>
        have unread : ∀ before, idiom.read? before (c :: s) = none := by
          intro before
          simp [read?, bound.scan_of_outside outside]
        simp only [pieces, piecesFrom, unread]

section

variable {s : List Char}

theorem WordBound.pieces_cons (bound : idiom.WordBound) {c : Char} (outside : isWord c = false)
    (s : List Char)
    : idiom.pieces (c :: s) = .plain c :: idiom.pieces s := by
  have nothing : idiom.scan (c :: s) = none := bound.scan_of_outside (by simpa using outside)
  have unread : idiom.read? none (c :: s) = none := by simp [read?, nothing]
  rw [pieces, piecesFrom, unread]
  exact congrArg _ (bound.piecesFrom_edge (.inl (by simpa using outside)))

theorem WordBound.pieces_word (bound : idiom.WordBound) {word : List Char} (filled : word ≠ [])
    (all : ∀ c ∈ word, isWord c = true) (ended : s.head?.any isWord = false)
    (nothing : idiom.scan (word ++ s) = none)
    : idiom.pieces (word ++ s) = word.map .plain ++ idiom.pieces s := by
  obtain ⟨c, tail, rfl⟩ := List.exists_cons_of_ne_nil filled
  rw [List.forall_mem_cons] at all
  have unread : idiom.read? none (c :: (tail ++ s)) = none := by
    rw [List.cons_append] at nothing
    simp [read?, nothing]
  rw [List.cons_append, pieces, piecesFrom, unread, List.map_cons, List.cons_append]
  rw [bound.piecesFrom_word all.2 (by simpa using all.1), bound.piecesFrom_edge (.inr ended)]

theorem WordBound.pieces_hit (bound : idiom.WordBound) {lexeme : List Char} {found : α}
    (scanned : idiom.scan (lexeme ++ s) = some (found, s))
    : idiom.pieces (lexeme ++ s) = .hit found lexeme :: idiom.pieces s := by
  obtain ⟨read, whole, first, last⟩ := bound.bounds _ _ _ scanned
  obtain rfl := List.append_cancel_right whole
  have filled : lexeme ≠ [] := by
    rintro rfl
    cases first
  rw [pieces, piecesFrom_of_scan (by simp [bound.opening, Opening.admits]) filled scanned,
    bound.piecesFrom_edge (by rwa [Option.or_none])]

variable {new : α → List Char}

theorem WordBound.replace_cons (bound : idiom.WordBound) {c : Char} (outside : isWord c = false)
    (s : List Char)
    : idiom.replace new (c :: s) = c :: idiom.replace new s := by
  rw [replace_eq_replaced, replace_eq_replaced, bound.pieces_cons outside]
  rfl

theorem WordBound.replace_word (bound : idiom.WordBound) {word : List Char} (filled : word ≠ [])
    (all : ∀ c ∈ word, isWord c = true) (ended : s.head?.any isWord = false)
    (nothing : idiom.scan (word ++ s) = none)
    : idiom.replace new (word ++ s) = word ++ idiom.replace new s := by
  rw [replace_eq_replaced, replace_eq_replaced, bound.pieces_word filled all ended nothing,
    List.flatMap_append, flatMap_replaced_plain]

theorem WordBound.replace_hit (bound : idiom.WordBound) {lexeme : List Char} {found : α}
    (scanned : idiom.scan (lexeme ++ s) = some (found, s))
    : idiom.replace new (lexeme ++ s) = new found ++ idiom.replace new s := by
  rw [replace_eq_replaced, replace_eq_replaced, bound.pieces_hit scanned]
  rfl

end

/-- A property of texts and their pieces holds if it holds of nothing and goes on over a character
outside words, a word where the idiom finds nothing, and a hit, by induction on the length of the
text.
-/
theorem WordBound.pieces_induction (bound : idiom.WordBound)
    {motive : List Char → List (Piece α) → Prop} (nil : motive [] [])
    (outside : ∀ c s pieces, isWord c = false → motive s pieces
      → motive (c :: s) (.plain c :: pieces))
    (word : ∀ word s pieces, word ≠ [] → (∀ c ∈ word, isWord c = true)
      → s.head?.any isWord = false → idiom.scan (word ++ s) = none → motive s pieces
      → motive (word ++ s) (word.map .plain ++ pieces))
    (hit : ∀ found lexeme s pieces, idiom.scan (lexeme ++ s) = some (found, s)
      → lexeme.head?.any isWord = true
      → (lexeme.getLast?.any isWord = false ∨ s.head?.any isWord = false) → motive s pieces
      → motive (lexeme ++ s) (.hit found lexeme :: pieces))
    (s : List Char)
    : motive s (idiom.pieces s) := by
  induction size : s.length using Nat.strong_induction_on generalizing s with
  | h size ih =>
      subst size
      cases s with
      | nil => exact nil
      | cons c s =>
          cases inWord : isWord c with
          | false =>
              rw [bound.pieces_cons inWord]
              exact outside _ _ _ inWord (ih s.length (by simp) s rfl)
          | true =>
              cases scanned : idiom.scan (c :: s) with
              | some result =>
                  obtain ⟨found, rest⟩ := result
                  obtain ⟨lexeme, whole, first, last⟩ := bound.bounds _ _ _ scanned
                  have shorter : rest.length < (c :: s).length := by
                    rw [whole, List.length_append]
                    have positive : 0 < lexeme.length :=
                      List.length_pos_iff.mpr (by rintro rfl; cases first)
                    omega
                  rw [whole] at scanned ⊢
                  rw [bound.pieces_hit scanned]
                  exact hit found lexeme rest _ scanned first last (ih rest.length shorter rest rfl)
              | none =>
                  obtain ⟨tail, rest, rfl, all, ended⟩ := exists_letters_append s
                  have letters : ∀ d ∈ c :: tail, isWord d = true :=
                    List.forall_mem_cons.mpr ⟨inWord, all⟩
                  have cut := bound.pieces_word (List.cons_ne_nil c tail) letters ended scanned
                  rw [List.cons_append] at cut
                  rw [cut]
                  exact word (c :: tail) rest _ (List.cons_ne_nil c tail) letters ended scanned
                    (ih rest.length (by simp) rest rfl)

theorem WordBound.text_induction (bound : idiom.WordBound) {motive : List Char → Prop}
    (nil : motive []) (outside : ∀ c s, isWord c = false → motive s → motive (c :: s))
    (word : ∀ word s, word ≠ [] → (∀ c ∈ word, isWord c = true) → s.head?.any isWord = false
      → idiom.scan (word ++ s) = none → motive s → motive (word ++ s))
    (hit : ∀ found lexeme s, idiom.scan (lexeme ++ s) = some (found, s)
      → lexeme.head?.any isWord = true
      → (lexeme.getLast?.any isWord = false ∨ s.head?.any isWord = false) → motive s
      → motive (lexeme ++ s))
    (s : List Char)
    : motive s :=
  bound.pieces_induction (motive := fun s _ => motive s) nil (fun c s _ => outside c s)
    (fun w s _ => word w s) (fun found lexeme s _ => hit found lexeme s) s

/-- With its hits replaced, a text starts with a word where it did, if all that is put in does. -/
theorem WordBound.head?_replace (bound : idiom.WordBound) {new : α → List Char}
    (starts : ∀ found lexeme rest, idiom.scan (lexeme ++ rest) = some (found, rest)
      → ∀ t, (new found ++ t).head?.any isWord = true)
    (s : List Char)
    : (idiom.replace new s).head?.any isWord = s.head?.any isWord := by
  induction s using bound.text_induction with
  | nil => rfl
  | outside c s outside =>
      rw [bound.replace_cons outside]
      rfl
  | word word s filled all ended nothing =>
      rw [bound.replace_word filled all ended nothing, head?_word_append filled all,
        head?_word_append filled all]
  | hit found lexeme s scanned first =>
      rw [bound.replace_hit scanned, starts found lexeme s scanned, List.head?_append_of_ne_nil,
        first]
      rintro rfl
      cases first

/-- Where the idiom occurs, the tokens of a hit stand among those of the text. -/
theorem WordBound.exists_of_occursIn (bound : idiom.WordBound) {s : List Char}
    (occurs : idiom.occursIn s = true)
    : ∃ start lexeme rest found, s = start ++ (lexeme ++ rest)
      ∧ idiom.scan (lexeme ++ rest) = some (found, rest)
      ∧ tokens s = tokens start ++ (tokens lexeme ++ tokens rest) := by
  have reads : idiom.scan.Reads fun _ read => read ≠ [] := by
    intro s found rest scanned
    obtain ⟨lexeme, whole, first, -⟩ := bound.bounds _ _ _ scanned
    exact ⟨lexeme, whole, by rintro rfl; cases first⟩
  obtain ⟨start, place, rfl, -, read⟩ := occursIn_iff_standsIn.mp occurs
  obtain ⟨admitted, found, rest, scanned⟩ := (isSome_read?_iff reads).mp read
  rw [List.append_nil] at scanned
  obtain ⟨lexeme, rfl, -, last⟩ := bound.bounds _ _ _ scanned
  have edge : start.getLast?.any isWord = false := by
    rw [Option.or_none, bound.opening] at admitted
    simpa [Opening.admits] using admitted
  exact ⟨start, lexeme, rest, found, rfl, scanned, by
    rw [tokens_append (.inl edge), tokens_append last]⟩

end Idiom

-----------------------------------------------------------------------------------------
-- Scanners, token by token
-----------------------------------------------------------------------------------------

section

variable {s rest word : List Char} {more : List (List Char)}

/-- A text that does not start with a blank starts with its first token. -/
theorem exists_eq_token_append (visible : s.head?.any isBlank = false)
    {token : List Char} (same : tokens s = token :: more)
    : ∃ rest, s = token ++ rest ∧ IsToken token rest ∧ tokens rest = more := by
  obtain ⟨gap, rest, rfl, blank, first, behind⟩ := exists_of_tokens_eq_cons same
  cases gap with
  | nil => exact ⟨rest, rfl, first, behind⟩
  | cons c gap =>
      have both : isBlank c = false := visible
      rw [blank c (by simp)] at both
      cases both

theorem IsToken.head_visible {token rest : List Char} (first : IsToken token rest)
    : (token ++ rest).head?.any isBlank = false := by
  cases first with
  | sign outside visible => simpa using visible
  | word filled all ended =>
      obtain ⟨c, tail, rfl⟩ := List.exists_cons_of_ne_nil filled
      exact isBlank_of_isWord (all c List.mem_cons_self)

/-- A token of two characters is a word. -/
theorem IsToken.starts {token rest : List Char} (first : IsToken token rest)
    (long : 2 ≤ token.length)
    : token.head?.any isWord = true := by
  cases first with
  | sign outside visible => simp at long
  | word filled all ended => exact head?_word filled all

namespace Scanner

theorem blanks_eq_some (found : blanks s = some ((), rest))
    : ∃ gap, s = gap ++ rest ∧ ∀ c ∈ gap, isBlank c = true := by
  obtain ⟨gap, ran⟩ := blanks_eq_some_iff.mp found
  obtain ⟨whole, all, -⟩ := run_eq_some_iff.mp ran
  exact ⟨gap, whole, all⟩

theorem blanks1_eq_some (found : blanks1 s = some ((), rest))
    : ∃ gap, s = gap ++ rest ∧ gap ≠ [] ∧ ∀ c ∈ gap, isBlank c = true := by
  obtain ⟨gap, filled, ran⟩ := blanks1_eq_some_iff.mp found
  obtain ⟨whole, all, -⟩ := run_eq_some_iff.mp ran
  exact ⟨gap, whole, filled, all⟩

theorem word_eq_some_iff
    : Scanner.word s = some (word, rest)
      ↔ s = word ++ rest ∧ word ≠ [] ∧ (∀ c ∈ word, isWord c = true)
        ∧ rest.head?.any isWord = false := by
  have stops_iff : rest.head?.any isWord = false ↔ ∀ c ∈ rest.head?, isWord c = false :=
    Option.any_eq_false _ _
  rw [Scanner.word, run1_eq_some_iff, run_eq_some_iff, stops_iff]
  exact and_left_comm

/-- Blanks in front of a token are read up to it. -/
theorem blanks_of_tokens {token : List Char} (same : tokens s = token :: more)
    : ∃ gap rest, s = gap ++ rest ∧ blanks s = some ((), rest)
      ∧ rest.head?.any isBlank = false ∧ tokens rest = token :: more := by
  obtain ⟨gap, rest, rfl, blank, first, behind⟩ := exists_of_tokens_eq_cons same
  have visible := first.head_visible
  refine ⟨gap, token ++ rest, rfl, ?_, visible, ?_⟩
  · refine blanks_eq_some_iff.mpr ⟨gap, run_eq_some_iff.mpr ⟨rfl, blank, ?_⟩⟩
    exact (Option.any_eq_false _ _).mp visible
  · rw [← same, tokens_blanks_append blank]

/-- Between two words there are blanks. -/
theorem blanks1_of_tokens (ended : s.head?.any isWord = false)
    (starts : word.head?.any isWord = true) (same : tokens s = word :: more)
    : ∃ gap rest, s = gap ++ rest ∧ blanks1 s = some ((), rest)
      ∧ rest.head?.any isBlank = false ∧ tokens rest = word :: more := by
  obtain ⟨gap, rest, whole, read, visible, behind⟩ := blanks_of_tokens same
  obtain ⟨found, ran⟩ := blanks_eq_some_iff.mp read
  refine ⟨gap, rest, whole, ?_, visible, behind⟩
  have filled : found ≠ [] := by
    rintro rfl
    obtain ⟨rfl, -, -⟩ := run_eq_some_iff.mp ran
    obtain ⟨rest, rfl, -, -⟩ := exists_eq_token_append visible behind
    obtain ⟨c, tail, rfl⟩ : ∃ c tail, word = c :: tail := by
      cases word with
      | nil => cases starts
      | cons c tail => exact ⟨c, tail, rfl⟩
    have both : isWord c = false := ended
    rw [show isWord c = true from starts] at both
    cases both
  exact blanks1_eq_some_iff.mpr ⟨found, filled, ran⟩

theorem literal_of_tokens (visible : s.head?.any isBlank = false) {text : String}
    (same : tokens s = text.toList :: more)
    : ∃ rest, s = text.toList ++ rest ∧ literal text s = some ((), rest)
      ∧ IsToken text.toList rest ∧ tokens rest = more := by
  obtain ⟨rest, whole, first, behind⟩ := exists_eq_token_append visible same
  exact ⟨rest, whole, literal_eq_some_iff.mpr whole, first, behind⟩

/-- A word is read as the token that it is. -/
theorem word_of_tokens (visible : s.head?.any isBlank = false)
    (starts : word.head?.any isWord = true) (same : tokens s = word :: more)
    : ∃ rest, s = word ++ rest ∧ Scanner.word s = some (word, rest)
      ∧ rest.head?.any isWord = false ∧ tokens rest = more := by
  obtain ⟨rest, rfl, first, behind⟩ := exists_eq_token_append visible same
  cases first with
  | sign outside _ =>
      rw [show isWord _ = true from starts] at outside
      cases outside
  | word filled all ended =>
      exact ⟨rest, rfl, word_eq_some_iff.mpr ⟨rfl, filled, all, ended⟩, ended, behind⟩

end Scanner

end

end RangeTuner.Text
