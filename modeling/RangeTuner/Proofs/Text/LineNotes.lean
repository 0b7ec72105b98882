import RangeTuner.Proofs.Text.Lexemes
import RangeTuner.Proofs.Text.WordIdioms

/-! Notes at the ends of lines. A note is a line comment behind a statement that ends its line. The
lexemes of a source and its notes do not meet, so an idiom for whole statements works on the source
as it would without notes, and cleaning takes the notes and nothing else. Main statements: replacing
hits of an idiom keeps notes where they are, and a source with notes has the tokens that it has
without them.
-/

namespace RangeTuner.Text

/-- Only blanks stand in the rest of the line. -/
def blankLine (s : List Char) : Bool :=
  (s.takeWhile (· ≠ '\n')).all isBlank

/-- The first text is the second one with notes behind semicolons that end their lines, where the
character before both is given.
-/
inductive Noted (note : List Char) : Option Char → List Char → List Char → Prop
  | nil {before : Option Char} : Noted note before [] []
  | char {before : Option Char} {c : Char} {u x : List Char} (more : Noted note (some c) u x)
    : Noted note before (c :: u) (c :: x)
  | note {u x : List Char} (blank : blankLine x = true) (more : Noted note (some ';') u x)
    : Noted note (some ';') (note ++ u) x

/-- A note is a line comment behind blanks. -/
structure IsLineNote (note : List Char) : Prop where
  shape : ∃ gap content, note = gap ++ lineComment content ∧ gap ≠ []
    ∧ ∀ c ∈ gap, isBlank c = true
  single : '\n' ∉ note

theorem IsLineNote.filled {note : List Char} (isNote : IsLineNote note) : note ≠ [] := by
  obtain ⟨gap, content, rfl, wide, -⟩ := isNote.shape
  simp [wide]

theorem blankLine_cons_of_ne {c : Char} (visible : c ≠ '\n') (s : List Char)
    : blankLine (c :: s) = (isBlank c && blankLine s) := by
  simp [blankLine, visible]

theorem isBlank_line : isBlank '\n' = true := by
  decide

/-- No word stands next on a line without words. -/
theorem outside_of_blankLine {s : List Char} (blank : blankLine s = true)
    : s.head?.any isWord = false := by
  cases s with
  | nil => rfl
  | cons c s =>
      by_cases line : c = '\n'
      · rw [line]
        exact isWord_of_isBlank isBlank_line
      · rw [blankLine_cons_of_ne line, Bool.and_eq_true] at blank
        exact isWord_of_isBlank blank.1

namespace Noted

variable {note u x a : List Char} {before : Option Char}

theorem refl (s : List Char) : Noted note before s s := by
  induction s generalizing before with
  | nil => exact .nil
  | cons c s ih => exact .char ih

theorem append (noted : Noted note (a.getLast?.or before) u x)
    : Noted note before (a ++ u) (a ++ x) := by
  induction a generalizing before with
  | nil => simpa using noted
  | cons c a ih =>
      rw [getLast?_cons_or] at noted
      exact .char (ih noted)

/-- Notes stand behind semicolons only. -/
theorem mono (noted : Noted note before u x) (other : before ≠ some ';') (before' : Option Char)
    : Noted note before' u x := by
  cases noted with
  | nil => exact .nil
  | char more => exact .char more
  | note => exact absurd rfl other

/-- A part of the text that has no semicolon but at its end is a part of the text with notes. -/
theorem of_append_text (noted : Noted note before u (a ++ x)) (other : before ≠ some ';')
    (whole : ';' ∉ a.dropLast)
    : ∃ u', u = a ++ u' ∧ Noted note (a.getLast?.or before) u' x := by
  induction a generalizing u before with
  | nil => exact ⟨u, rfl, noted⟩
  | cons c a ih =>
      cases noted with
      | note => exact absurd rfl other
      | char more =>
          cases a with
          | nil => exact ⟨_, rfl, more⟩
          | cons d a =>
              rw [List.dropLast_cons_cons, List.mem_cons, not_or] at whole
              obtain ⟨u', rfl, behind⟩ := ih more (by simpa using Ne.symm whole.1) whole.2
              exact ⟨u', rfl, by rwa [getLast?_cons_or]⟩

/-- A part of the text with notes that has no semicolon but at its end is a part of the text. -/
theorem of_append_noted (noted : Noted note before (a ++ u) x) (other : before ≠ some ';')
    (whole : ';' ∉ a.dropLast)
    : ∃ x', x = a ++ x' ∧ Noted note (a.getLast?.or before) u x' := by
  induction a generalizing x before with
  | nil => exact ⟨x, rfl, noted⟩
  | cons c a ih =>
      generalize shape : c :: a ++ u = s at noted
      cases noted with
      | nil => cases shape
      | note => exact absurd rfl other
      | char more =>
          obtain ⟨rfl, rfl⟩ := List.cons.inj shape
          cases a with
          | nil => exact ⟨_, rfl, more⟩
          | cons d a =>
              rw [List.dropLast_cons_cons, List.mem_cons, not_or] at whole
              obtain ⟨x', rfl, behind⟩ := ih more (by simpa using Ne.symm whole.1) whole.2
              exact ⟨x', rfl, by rwa [getLast?_cons_or]⟩

/-- Both texts start with a word, or none of them does. -/
theorem head_isWord (isNote : IsLineNote note) (noted : Noted note before u x)
    : u.head?.any isWord = x.head?.any isWord := by
  cases noted with
  | nil => rfl
  | char more => rfl
  | note blank more =>
      obtain ⟨gap, content, rfl, filled, inGap⟩ := isNote.shape
      rw [outside_of_blankLine blank, List.append_assoc]
      exact head?_gap_append filled inGap _

/-- What stands in the text with notes stands in the text or in a note. -/
theorem mem (noted : Noted note before u x) {c : Char} (member : c ∈ u)
    : c ∈ x ∨ c ∈ note := by
  induction noted with
  | nil => cases member
  | char more ih =>
      rcases List.mem_cons.mp member with rfl | later
      · exact .inl List.mem_cons_self
      · exact (ih later).imp_left (List.mem_cons_of_mem _)
  | note blank more ih => exact (List.mem_append.mp member).elim .inr ih

end Noted

-----------------------------------------------------------------------------------------
-- Statements
-----------------------------------------------------------------------------------------

/-- Hits of the idiom have no semicolon but at their end, and are read whatever follows, as long as
a word stands next or none does.
-/
structure Idiom.Sealed {α : Type} (idiom : Idiom α) : Prop where
  bound : idiom.WordBound
  reads : ∀ s found rest, idiom.scan s = some (found, rest)
    → ∃ lexeme, s = lexeme ++ rest ∧ ';' ∉ lexeme.dropLast
      ∧ ∀ t, t.head?.any isWord = rest.head?.any isWord
        → idiom.scan (lexeme ++ t) = some (found, t)

section

variable {α : Type} {idiom : Idiom α} {note u x : List Char} {before : Option Char}

/-- Where the idiom reads a statement of a text, it reads it of the text with notes. -/
theorem Idiom.Sealed.scan_noted (sealed : idiom.Sealed) (isNote : IsLineNote note)
    {lexeme s : List Char} {found : α} (scanned : idiom.scan (lexeme ++ s) = some (found, s))
    (noted : Noted note none u (lexeme ++ s))
    : ∃ u', u = lexeme ++ u' ∧ idiom.scan (lexeme ++ u') = some (found, u')
      ∧ Noted note lexeme.getLast? u' s := by
  obtain ⟨read, whole, single, again⟩ := sealed.reads _ _ _ scanned
  obtain rfl := List.append_cancel_right whole
  obtain ⟨u', rfl, behind⟩ := noted.of_append_text (by simp) single
  rw [Option.or_none] at behind
  exact ⟨u', rfl, again u' (behind.head_isWord isNote), behind⟩

/-- What the idiom reads of a text with notes it reads of the text. -/
theorem Idiom.Sealed.scan_text (sealed : idiom.Sealed) (isNote : IsLineNote note)
    (noted : Noted note none u x) (nothing : idiom.scan x = none)
    : idiom.scan u = none := by
  refine Option.eq_none_iff_forall_ne_some.mpr ?_
  intro ⟨found, rest⟩ scanned
  obtain ⟨lexeme, rfl, single, again⟩ := sealed.reads _ _ _ scanned
  obtain ⟨x', rfl, behind⟩ := noted.of_append_noted (by simp) single
  rw [again x' (behind.head_isWord isNote).symm] at nothing
  cases nothing

/-- Replacing hits leaves the blanks of a line, by induction on the text. -/
theorem Idiom.WordBound.blankLine_replace (bound : idiom.WordBound) {new : α → List Char}
    {s : List Char} (blank : blankLine s = true)
    : blankLine (idiom.replace new s) = true := by
  induction s with
  | nil => exact blank
  | cons c s ih =>
      rw [bound.replace_cons (by simpa using outside_of_blankLine blank)]
      by_cases line : c = '\n'
      · simp [blankLine, line]
      · rw [blankLine_cons_of_ne line, Bool.and_eq_true] at blank ⊢
        exact ⟨blank.1, ih blank.2⟩

/-- A property of texts with notes holds if it holds of nothing and goes on over a note, a character
outside words, a word where the idiom finds nothing, and a hit, by induction on the length of the
text with notes: it is cut in the same places with and without them.
-/
theorem Idiom.Sealed.noted_induction (sealed : idiom.Sealed) (isNote : IsLineNote note)
    {motive : Option Char → List Char → List Char → Prop} (nil : ∀ before, motive before [] [])
    (noted : ∀ u x, blankLine x = true → u.head?.any isWord = false → motive (some ';') u x
      → motive (some ';') (note ++ u) x)
    (outside : ∀ before c u x, isWord c = false → motive (some c) u x
      → motive before (c :: u) (c :: x))
    (word : ∀ before word u x, word ≠ [] → (∀ c ∈ word, isWord c = true)
      → u.head?.any isWord = false → x.head?.any isWord = false
      → idiom.scan (word ++ u) = none → idiom.scan (word ++ x) = none
      → motive word.getLast? u x → motive before (word ++ u) (word ++ x))
    (hit : ∀ before found lexeme u x, idiom.scan (lexeme ++ u) = some (found, u)
      → idiom.scan (lexeme ++ x) = some (found, x)
      → (lexeme.getLast?.any isWord = false ∨ x.head?.any isWord = false)
      → motive lexeme.getLast? u x → motive before (lexeme ++ u) (lexeme ++ x))
    (texts : Noted note before u x)
    : motive before u x := by
  induction size : u.length using Nat.strong_induction_on generalizing before u x with
  | h size ih =>
      subst size
      have shorter : ∀ front u : List Char, front ≠ [] → u.length < (front ++ u).length := by
        intro front u filled
        have positive := List.length_pos_iff.mpr filled
        rw [List.length_append]
        omega
      cases texts with
      | nil => exact nil _
      | note blank more =>
          exact noted _ _ blank ((more.head_isWord isNote).trans (outside_of_blankLine blank))
            (ih _ (shorter _ _ isNote.filled) more rfl)
      | char more =>
          rename_i c u x
          have texts : Noted note none (c :: u) (c :: x) := .char more
          cases inWord : isWord c with
          | false => exact outside _ c u x inWord (ih u.length (by simp) more rfl)
          | true =>
              cases scanned : idiom.scan (c :: x) with
              | some result =>
                  obtain ⟨found, s⟩ := result
                  obtain ⟨lexeme, whole, first, last⟩ := sealed.bound.bounds _ _ _ scanned
                  rw [whole] at scanned texts ⊢
                  obtain ⟨u', whole', scanned', behind⟩ := sealed.scan_noted isNote scanned texts
                  have filled : lexeme ≠ [] := by
                    rintro rfl
                    cases first
                  rw [whole'] at ih ⊢
                  exact hit _ found lexeme u' s scanned' scanned last
                    (ih _ (shorter _ _ filled) behind rfl)
              | none =>
                  obtain ⟨word', s, whole, filled, all, ended⟩ :=
                    exists_word_append (s := c :: x) inWord
                  have nothing := sealed.scan_text isNote texts scanned
                  rw [whole] at scanned texts ⊢
                  have single : ';' ∉ word'.dropLast := fun member =>
                    absurd (all ';' (List.mem_of_mem_dropLast member)) (by decide)
                  obtain ⟨u', whole', behind⟩ := texts.of_append_text (by simp) single
                  rw [Option.or_none] at behind
                  rw [whole'] at nothing ih ⊢
                  exact word _ word' u' s filled all ((behind.head_isWord isNote).trans ended) ended
                    nothing scanned (ih _ (shorter _ _ filled) behind rfl)

/-- The idiom finds in a text what it finds in the text with notes, and with its hits replaced the
second is the first with notes. A property of texts may be known of the text, if it goes over to
what stands behind the edge of a word.
-/
theorem Noted.replace (sealed : idiom.Sealed) (isNote : IsLineNote note)
    (skips : ∀ t, t.head?.any isWord = false
      → idiom.pieces (note ++ t) = note.map .plain ++ idiom.pieces t)
    {new bare : α → List Char} (known : List Char → Prop)
    (behind : ∀ a s, (a.getLast?.any isWord = false ∨ s.head?.any isWord = false) → known (a ++ s)
      → known s)
    (step : ∀ lexeme found s u before, idiom.scan (lexeme ++ s) = some (found, s)
      → known (lexeme ++ s) → Noted note lexeme.getLast? u (idiom.replace bare s)
      → Noted note before (new found ++ u) (bare found ++ idiom.replace bare s))
    (noted : Noted note before u x) (has : known x)
    : Noted note before (idiom.replace new u) (idiom.replace bare x)
      ∧ idiom.findAll u = idiom.findAll x := by
  have bound := sealed.bound
  refine sealed.noted_induction isNote
    (motive := fun before u x => known x
      → Noted note before (idiom.replace new u) (idiom.replace bare x)
        ∧ idiom.findAll u = idiom.findAll x) (fun _ _ => ⟨.nil, rfl⟩) ?_ ?_ ?_ ?_ noted has
  · intro u x blank outside ih has
    obtain ⟨replaced, found⟩ := ih has
    have split : idiom.replace new (note ++ u) = note ++ idiom.replace new u := by
      rw [Idiom.replace_eq_replaced, Idiom.replace_eq_replaced, skips u outside,
        List.flatMap_append, flatMap_replaced_plain]
    have nothing : idiom.findAll (note ++ u) = idiom.findAll u := by
      simp [Idiom.findAll, skips u outside, List.filterMap_map, Piece.found?]
    rw [split, nothing]
    exact ⟨.note (bound.blankLine_replace blank) replaced, found⟩
  · intro before c u x outside ih has
    have edge : ([c] : List Char).getLast?.any isWord = false := by simpa using outside
    obtain ⟨replaced, found⟩ := ih (behind [c] x (.inl edge) has)
    rw [bound.replace_cons outside, bound.replace_cons outside]
    refine ⟨.char replaced, ?_⟩
    simpa [Idiom.findAll, bound.pieces_cons outside, Piece.found?, List.filterMap_cons] using found
  · intro before word u x filled all ended' ended nothing' nothing ih has
    obtain ⟨replaced, found⟩ := ih (behind _ _ (.inr ended) has)
    rw [bound.replace_word filled all ended' nothing', bound.replace_word filled all ended nothing]
    refine ⟨.append ?_, ?_⟩
    · rwa [Option.or_of_isSome (List.getLast?_isSome.mpr filled)]
    · simpa [Idiom.findAll, bound.pieces_word filled all ended' nothing',
        bound.pieces_word filled all ended nothing, List.filterMap_map, Piece.found?] using found
  · intro before found lexeme u x scanned' scanned last ih has
    obtain ⟨replaced, same⟩ := ih (behind _ _ last has)
    rw [bound.replace_hit scanned', bound.replace_hit scanned]
    refine ⟨step lexeme found x _ before scanned has replaced, ?_⟩
    simpa [Idiom.findAll, bound.pieces_hit scanned', bound.pieces_hit scanned, Piece.found?]
      using same

end

-----------------------------------------------------------------------------------------
-- Cleaning
-----------------------------------------------------------------------------------------

/-- The text has no quotes and opens no comment. -/
def codeOnly : List Char → Bool
  | [] => true
  | c :: s => c != '"' && c != '\'' && (c != '/' || !s.head?.any (fun d => d == '/' || d == '*'))
      && codeOnly s

theorem codeOnly_of_append {a s : List Char} (code : codeOnly (a ++ s) = true)
    : codeOnly s = true := by
  induction a with
  | nil => exact code
  | cons c a ih =>
      simp only [List.cons_append, codeOnly, Bool.and_eq_true] at code
      exact ih code.2

/-- A text without quotes and starts of comments is code. -/
theorem codeOnly_of_absent {s : List Char}
    (absent : ∀ part ∈ ["//", "/*", "\"", "'"], occurs part.toList s = false)
    : codeOnly s = true := by
  induction s with
  | nil => rfl
  | cons c s ih =>
      have later : codeOnly s = true :=
        ih fun part member => not_occurs_of_append (s := [c]) (absent part member)
      have first : ∀ part ∈ ["//", "/*", "\"", "'"], ¬ part.toList <+: c :: s := by
        intro part member start
        have found := occurs_iff_isInfix.mpr start.isInfix
        rw [absent part member] at found
        cases found
      have double : c ≠ '"' := by
        rintro rfl
        exact first "\"" (by decide) ⟨s, rfl⟩
      have single : c ≠ '\'' := by
        rintro rfl
        exact first "'" (by decide) ⟨s, rfl⟩
      have slash : c = '/' → s.head?.any (fun d => d == '/' || d == '*') = false := by
        rintro rfl
        cases s with
        | nil => rfl
        | cons d s =>
            have line : d ≠ '/' := by
              rintro rfl
              exact first "//" (by decide) ⟨s, rfl⟩
            have block : d ≠ '*' := by
              rintro rfl
              exact first "/*" (by decide) ⟨s, rfl⟩
            simp [line, block]
      simpa [codeOnly, double, single, later, ← imp_iff_not_or] using slash

theorem not_mem_of_codeOnly {s : List Char} (code : codeOnly s = true)
    : '"' ∉ s := by
  intro member
  obtain ⟨start, rest, rfl⟩ := List.append_of_mem member
  cases codeOnly_of_append code

/-- No character of a word is a quote or starts a comment. -/
theorem code_of_isWord {c : Char} (inWord : isWord c = true)
    : c ∉ ['"', '\'', '/'] := by
  intro sign
  simp only [List.mem_cons, List.not_mem_nil, or_false] at sign
  rcases sign with rfl | rfl | rfl <;> exact absurd inWord (by decide)

theorem codeOnly_append {a s : List Char} (plain : ∀ c ∈ a, c ∉ ['"', '\'', '/'])
    (code : codeOnly s = true)
    : codeOnly (a ++ s) = true := by
  induction a with
  | nil => exact code
  | cons c a ih =>
      rw [List.forall_mem_cons] at plain
      have first := plain.1
      simp only [List.mem_cons, List.not_mem_nil, or_false, not_or] at first
      simp [codeOnly, first, ih plain.2]

/-- Behind the line the texts are again the same but for notes. -/
theorem Noted.dropWhile_line {note u x : List Char} {before : Option Char}
    (isNote : IsLineNote note) (noted : Noted note before u x)
    : ∃ between, Noted note between (u.dropWhile (· ≠ '\n')) (x.dropWhile (· ≠ '\n')) := by
  induction noted with
  | nil => exact ⟨none, .nil⟩
  | @char before c u x more ih =>
      by_cases line : c = '\n'
      · rw [line, List.dropWhile_cons_of_neg (by simp), List.dropWhile_cons_of_neg (by simp)]
        exact ⟨none, .char (line ▸ more)⟩
      · rwa [List.dropWhile_cons_of_pos (by simpa using line),
          List.dropWhile_cons_of_pos (by simpa using line)]
  | note blank more ih =>
      rwa [List.dropWhile_append_of_pos]
      exact fun c member => by simpa using fun line : c = '\n' => isNote.single (line ▸ member)

theorem Noted.head_eq {note u x : List Char} {before : Option Char}
    (noted : Noted note before u x) (other : before ≠ some ';')
    : u.head? = x.head? := by
  cases noted with
  | nil => rfl
  | char more => rfl
  | note => exact absurd rfl other

theorem clean_blanks_append {gap : List Char} (blank : ∀ c ∈ gap, isBlank c = true)
    (s : List Char)
    : clean (gap ++ s) = gap ++ clean s :=
  clean_plain_append (plain_of_class (by decide) (by decide) (by decide) (by decide) blank) s

/-- A line comment is cleaned away up to the end of its line. -/
theorem clean_lineComment_append {content : List Char} (single : '\n' ∉ content) (s : List Char)
    : clean (lineComment content ++ s) = clean (s.dropWhile (· ≠ '\n')) := by
  have within : '\n' ∉ content ++ s.takeWhile (· ≠ '\n') := by
    refine List.not_mem_append single fun member => ?_
    simpa using List.all_eq_true.mp List.all_takeWhile _ member
  have formed := Lexeme.Formed.line within (Lexeme.head?_dropWhile_line s)
  have whole : lineComment content ++ s
      = lineComment (content ++ s.takeWhile (· ≠ '\n')) ++ s.dropWhile (· ≠ '\n') := by
    simp [lineComment]
  rw [whole, clean_append formed]
  rfl

/-- A word ends in front of a text that starts with none. -/
theorem tokensFrom_of_outside {s : List Char} (outside : s.head?.any isWord = false)
    (word : List Char)
    : tokensFrom word s = endedWord word ++ tokens s :=
  tokensFrom_append outside word []

/-- A line without words ends a word, and its tokens are those behind it. -/
theorem tokensFrom_of_blankLine {s : List Char} (blank : blankLine s = true) (word : List Char)
    : tokensFrom word s = endedWord word ++ tokens (s.dropWhile (· ≠ '\n')) := by
  have inLine : ∀ c ∈ s.takeWhile (· ≠ '\n'), isBlank c = true := List.all_eq_true.mp blank
  rw [tokensFrom_of_outside (outside_of_blankLine blank),
    ← tokens_blanks_append inLine (s.dropWhile _), List.takeWhile_append_dropWhile]

/-- Of a note and the rest of its line, cleaning leaves the blanks in front. -/
theorem IsLineNote.exists_clean_append {note : List Char} (isNote : IsLineNote note)
    (s : List Char)
    : ∃ gap, gap ≠ [] ∧ (∀ c ∈ gap, isBlank c = true)
      ∧ clean (note ++ s) = gap ++ clean (s.dropWhile (· ≠ '\n')) := by
  obtain ⟨gap, content, rfl, filled, inGap⟩ := isNote.shape
  have single : '\n' ∉ content := fun member => isNote.single (by simp [lineComment, member])
  refine ⟨gap, filled, inGap, ?_⟩
  rw [List.append_assoc, clean_blanks_append inGap, clean_lineComment_append single]

/-- What stands in a text that is code is code in the text with notes. -/
theorem Noted.scan_cons {note u x : List Char} {c : Char} (noted : Noted note (some c) u x)
    (code : codeOnly (c :: x) = true)
    : Lexeme.scan (c :: u) = none := by
  simp only [codeOnly, Bool.and_eq_true, bne_iff_ne, Bool.or_eq_true, ne_eq] at code
  obtain ⟨⟨⟨double, single⟩, slash⟩, -⟩ := code
  refine Lexeme.scan_cons (fun mark => (mark.elim double single).elim) ?_
  rintro rfl
  rw [noted.head_eq (by decide)]
  cases first : x.head? with
  | none => simp
  | some d => simpa [first] using slash

/-- Cleaning takes the notes of a text and nothing else, by induction on the length of the text with
notes: a note is cleaned away with the rest of its line, where nothing but blanks and notes stands.
-/
theorem Noted.tokensFrom_clean {note u x : List Char} {before : Option Char}
    (isNote : IsLineNote note) (noted : Noted note before u x) (code : codeOnly x = true)
    (word : List Char)
    : tokensFrom word (clean u) = tokensFrom word x := by
  induction size : u.length using Nat.strong_induction_on generalizing before u x word with
  | h size ih =>
      subst size
      cases noted with
      | nil => rfl
      | char more =>
          rename_i c u x
          have later : ∀ word, tokensFrom word (clean u) = tokensFrom word x :=
            fun word => ih u.length (by simp) more (codeOnly_of_append (a := [c]) code) word rfl
          rw [clean_cons (more.scan_cons code)]
          simp only [tokensFrom, later]
      | note blank more =>
          rename_i u
          obtain ⟨between, behind⟩ := more.dropWhile_line isNote
          have shorter : (u.dropWhile (· ≠ '\n')).length < (note ++ u).length := by
            have part := (List.dropWhile_suffix (l := u) (· ≠ '\n')).length_le
            have positive := List.length_pos_iff.mpr isNote.filled
            rw [List.length_append]
            omega
          have rest : codeOnly (x.dropWhile (· ≠ '\n')) = true :=
            codeOnly_of_append (a := x.takeWhile (· ≠ '\n'))
              (by rwa [List.takeWhile_append_dropWhile])
          have later : tokens (clean (u.dropWhile (· ≠ '\n'))) = tokens (x.dropWhile (· ≠ '\n')) :=
            ih _ shorter behind rest [] rfl
          obtain ⟨gap, wide, inGap, cleaned⟩ := isNote.exists_clean_append u
          rw [cleaned, tokensFrom_of_outside (head?_gap_append wide inGap _),
            tokens_blanks_append inGap, later, ← tokensFrom_of_blankLine blank]

end RangeTuner.Text
