import RangeTuner.Proofs.Text.LineNotes

/-! Statements at the ends of lines. An idiom may find a kind of statements, each up to its
semicolon, and all of them may end their lines. Replacing the hits of another idiom brings no such
statement and takes no line end away, if what it puts in starts with a word that is not in the rest
of one. Main statement: where statements end their lines, they do so when other hits are replaced.
-/

namespace RangeTuner.Text

/-- A beginning of a text that does not end inside a word takes the first word of it, or is empty.
-/
theorem eq_nil_or_word_append {word t a rest : List Char} (filled : word ≠ [])
    (all : ∀ c ∈ word, isWord c = true) (ended : t.head?.any isWord = false)
    (apart : a.getLast?.any isWord = false) (whole : word ++ t = a ++ rest)
    : a = [] ∨ ∃ more, a = word ++ more ∧ t = more ++ rest ∧ more.getLast?.any isWord = false
      ∧ tokens a = word :: tokens more := by
  rcases List.append_eq_append_iff.mp whole with ⟨more, rfl, rfl⟩ | ⟨x, rfl, -⟩
  · refine .inr ⟨more, rfl, rfl, apart_of_append apart, tokens_word_append filled all ?_⟩
    cases more with
    | nil => rfl
    | cons c more => exact ended
  · rcases List.eq_nil_or_concat a with rfl | ⟨a, c, rfl⟩
    · exact .inl rfl
    · have last : isWord c = false := by simpa using apart
      rw [all c (by simp)] at last
      cases last

namespace Idiom

variable {α β : Type} {idiom : Idiom α}

/-- Hits of the idiom are statements: they end with their only semicolon, and are read whatever
follows. Behind the first token, theirs are of some sort.
-/
structure Statements (inner : List Char → Bool) (idiom : Idiom α) : Prop where
  bound : idiom.WordBound
  reads : ∀ s found rest, idiom.scan s = some (found, rest)
    → ∃ lexeme, s = lexeme ++ rest ∧ ';' ∉ lexeme.dropLast ∧ lexeme.getLast? = some ';'
      ∧ (∀ token ∈ (tokens lexeme).tail, inner token = true)
      ∧ ∀ t, idiom.scan (lexeme ++ t) = some (found, t)

theorem Statements.sealed {inner : List Char → Bool} (statements : idiom.Statements inner)
    : idiom.Sealed := by
  refine ⟨statements.bound, ?_⟩
  intro s found rest scanned
  obtain ⟨lexeme, whole, single, -, -, again⟩ := statements.reads s found rest scanned
  exact ⟨lexeme, whole, single, fun t _ => again t⟩

/-- Wherever the idiom can be read, it reads the last thing of a line. -/
def EndsLines (idiom : Idiom α) (s : List Char) : Prop :=
  ∀ start t found rest, s = start ++ t → idiom.opening.admits start.getLast? = true
    → idiom.scan t = some (found, rest) → blankLine rest = true

/-- What may be read at the start of a text is the last thing of a line. -/
def endsLine (idiom : Idiom α) (before : Option Char) (s : List Char) : Bool :=
  !idiom.opening.admits before || (idiom.scan s).all fun result => blankLine result.2

/-- The same at every place of a text that stands behind some character. -/
def endsLinesFrom (idiom : Idiom α) (before : Option Char) : List Char → Bool
  | [] => idiom.endsLine before []
  | c :: s => idiom.endsLine before (c :: s) && idiom.endsLinesFrom (some c) s

theorem endsLine_iff {before : Option Char} {s : List Char}
    : idiom.endsLine before s = true ↔ ∀ found rest, idiom.opening.admits before = true
      → idiom.scan s = some (found, rest) → blankLine rest = true := by
  rw [endsLine, Bool.or_eq_true, Bool.not_eq_true', ← Bool.not_eq_true, ← imp_iff_not_or]
  cases idiom.scan s with
  | none => simp
  | some result =>
      simp only [Option.all_some, Option.some.injEq]
      constructor
      · rintro ends found rest admitted rfl
        exact ends admitted
      · exact fun ends admitted => ends result.1 result.2 admitted rfl

theorem endsLinesFrom_iff {before : Option Char} {s : List Char}
    : idiom.endsLinesFrom before s = true ↔ ∀ start t, s = start ++ t
      → idiom.endsLine (start.getLast?.or before) t = true := by
  induction s generalizing before with
  | nil => simp [endsLinesFrom, List.append_eq_nil_iff]
  | cons c s ih =>
      simp only [endsLinesFrom, Bool.and_eq_true, ih]
      constructor
      · rintro ⟨here, later⟩ start t whole
        rcases List.cons_eq_append_iff.mp whole with ⟨rfl, rfl⟩ | ⟨start, rfl, rfl⟩
        · exact here
        · rw [getLast?_cons_or]
          exact later start t rfl
      · refine fun all => ⟨all [] (c :: s) rfl, fun start t whole => ?_⟩
        rw [← getLast?_cons_or]
        exact all (c :: start) t (by rw [whole, List.cons_append])

theorem endsLines_iff {s : List Char}
    : idiom.EndsLines s ↔ idiom.endsLinesFrom none s = true := by
  simp only [endsLinesFrom_iff, endsLine_iff, EndsLines, Option.or_none]
  exact ⟨fun ends start t whole found rest => ends start t found rest whole,
    fun ends start t found rest whole => ends start t whole found rest⟩

instance {s : List Char} : Decidable (idiom.EndsLines s) :=
  decidable_of_iff _ endsLines_iff.symm

-----------------------------------------------------------------------------------------
-- Places at the edges of words
-----------------------------------------------------------------------------------------

section

variable {s : List Char}

/-- What is said of a text is said of what stands behind the edge of a word. -/
theorem EndsLines.of_append (bound : idiom.WordBound) {a : List Char}
    (edge : a.getLast?.any isWord = false ∨ s.head?.any isWord = false)
    (ends : idiom.EndsLines (a ++ s))
    : idiom.EndsLines s := by
  intro start t found rest whole admitted scanned
  refine ends (a ++ start) t found rest (by rw [whole, List.append_assoc]) ?_ scanned
  cases start with
  | cons c start => simpa [List.getLast?_append, List.getLast?_cons] using admitted
  | nil =>
      rcases edge with free | outside
      · simpa [bound.opening, Opening.admits] using free
      · rw [whole, List.nil_append] at outside
        rw [bound.scan_of_outside outside] at scanned
        cases scanned

theorem EndsLines.nil (bound : idiom.WordBound) : idiom.EndsLines [] := by
  intro start t found rest whole _ scanned
  obtain ⟨-, rfl⟩ := List.append_eq_nil_iff.mp whole.symm
  rw [bound.scan_of_outside rfl] at scanned
  cases scanned

theorem EndsLines.cons (bound : idiom.WordBound) {c : Char} (outside : isWord c = false)
    (ends : idiom.EndsLines s)
    : idiom.EndsLines (c :: s) := by
  intro start t found rest whole admitted scanned
  rcases List.cons_eq_append_iff.mp whole with ⟨rfl, rfl⟩ | ⟨start, rfl, rfl⟩
  · rw [bound.scan_of_outside (by simpa using outside)] at scanned
    cases scanned
  · refine ends start t found rest rfl ?_ scanned
    cases start with
    | nil => simp [bound.opening, Opening.admits]
    | cons d start => simpa [List.getLast?_cons] using admitted

/-- A word is one place more. -/
theorem EndsLines.word (bound : idiom.WordBound) {word : List Char} (filled : word ≠ [])
    (all : ∀ c ∈ word, isWord c = true)
    (here : ∀ found rest, idiom.scan (word ++ s) = some (found, rest) → blankLine rest = true)
    (ends : idiom.EndsLines s)
    : idiom.EndsLines (word ++ s) := by
  intro start t found rest whole admitted scanned
  -- behind a character of the word no word starts
  have refused : ∀ {a : List Char}, a ≠ [] → (∀ c ∈ a, isWord c = true)
      → idiom.opening.admits a.getLast? ≠ true := by
    intro a filled all
    have last := all _ (List.getLast_mem filled)
    simp [bound.opening, Opening.admits, List.getLast?_eq_some_getLast filled, last]
  rcases List.append_eq_append_iff.mp whole with ⟨x, rfl, rfl⟩ | ⟨x, rfl, rfl⟩
  · cases x with
    | nil => exact absurd (by simpa using admitted) (refused filled all)
    | cons c x =>
        exact ends (c :: x) t found rest rfl
          (by simpa [List.getLast?_append, List.getLast?_cons] using admitted) scanned
  · cases start with
    | nil => exact here found rest scanned
    | cons c start =>
        refine absurd admitted (refused (List.cons_ne_nil c start) ?_)
        exact fun d member => all d (List.mem_append_left x member)

/-- At the start of a text a statement can be read. -/
theorem EndsLines.here (bound : idiom.WordBound) {found : α} {rest : List Char}
    (ends : idiom.EndsLines s) (scanned : idiom.scan s = some (found, rest))
    : blankLine rest = true :=
  ends [] s found rest rfl (by simp [bound.opening, Opening.admits]) scanned

end

-----------------------------------------------------------------------------------------
-- Replaced hits
-----------------------------------------------------------------------------------------

/-- What is put in starts with a word that the rest of statements does not have. -/
structure Opens (inner : List Char → Bool) (idiom : Idiom α) (new : α → List Char) : Prop where
  bound : idiom.WordBound
  starts : ∀ lexeme found rest, idiom.scan (lexeme ++ rest) = some (found, rest)
    → ∃ word more, new found = word ++ more ∧ word ≠ [] ∧ (∀ c ∈ word, isWord c = true)
      ∧ inner word = false
      ∧ ∀ t, t.head?.any isWord = rest.head?.any isWord → (more ++ t).head?.any isWord = false

section

variable {inner : List Char → Bool} {new : α → List Char} {s : List Char}

/-- A text starts as before when hits are replaced, or with another word. -/
theorem Opens.head (opens : idiom.Opens inner new) (s : List Char)
    : (idiom.replace new s).head? = s.head?
      ∨ (idiom.replace new s).head?.any isWord = true ∧ s.head?.any isWord = true := by
  induction s using opens.bound.text_induction with
  | nil => exact .inl rfl
  | outside c s outside =>
      rw [opens.bound.replace_cons outside]
      exact .inl rfl
  | word word s filled all ended nothing =>
      rw [opens.bound.replace_word filled all ended nothing]
      exact .inr ⟨head?_word_append filled all _, head?_word_append filled all _⟩
  | hit found lexeme s scanned first =>
      obtain ⟨word, more, same, filled, all, -⟩ := opens.starts _ _ _ scanned
      rw [opens.bound.replace_hit scanned, same, List.append_assoc]
      refine .inr ⟨head?_word_append filled all _, ?_⟩
      rwa [List.head?_append_of_ne_nil _ (by rintro rfl; cases first)]

theorem Opens.head_isWord (opens : idiom.Opens inner new) (s : List Char)
    : (idiom.replace new s).head?.any isWord = s.head?.any isWord := by
  rcases opens.head s with same | ⟨first, second⟩
  · rw [same]
  · rw [first, second]

/-- A beginning of a text with replaced hits that has only tokens as behind the first one of a
statement, and does not end inside a word, is a beginning of the text. By induction on the text.
-/
theorem Opens.of_replace_eq_append (opens : idiom.Opens inner new) {a rest : List Char}
    (apart : a.getLast?.any isWord = false) (within : ∀ token ∈ tokens a, inner token = true)
    (whole : idiom.replace new s = a ++ rest)
    : ∃ rest', s = a ++ rest' ∧ rest = idiom.replace new rest' := by
  induction s using opens.bound.text_induction generalizing a with
  | nil =>
      obtain ⟨rfl, rfl⟩ := List.append_eq_nil_iff.mp whole.symm
      exact ⟨[], rfl, rfl⟩
  | outside c s outside ih =>
      rw [opens.bound.replace_cons outside] at whole
      rcases List.cons_eq_append_iff.mp whole with ⟨rfl, rfl⟩ | ⟨a, rfl, same⟩
      · exact ⟨c :: s, rfl, (opens.bound.replace_cons outside s).symm⟩
      · have within' : ∀ token ∈ tokens a, inner token = true := by
          rw [tokens_cons outside] at within
          exact fun token member => within token (List.mem_append_right _ member)
        have apart' : ([c] ++ a).getLast?.any isWord = false := apart
        obtain ⟨rest', rfl, behind⟩ := ih (apart_of_append apart') within' same
        exact ⟨rest', rfl, behind⟩
  | word word s filled all ended nothing ih =>
      rw [opens.bound.replace_word filled all ended nothing] at whole
      rcases eq_nil_or_word_append filled all ((opens.head_isWord s).trans ended) apart whole with
        rfl | ⟨more, rfl, same, apart', cut⟩
      · exact ⟨word ++ s, rfl, by
          rw [opens.bound.replace_word filled all ended nothing, whole, List.nil_append]⟩
      · rw [cut, List.forall_mem_cons] at within
        obtain ⟨rest', rfl, behind⟩ := ih apart' within.2 same
        exact ⟨rest', by rw [List.append_assoc], behind⟩
  | hit found lexeme s scanned first last ih =>
      obtain ⟨word, more, same, filled, all, outer, ended⟩ := opens.starts _ _ _ scanned
      rw [opens.bound.replace_hit scanned, same, List.append_assoc] at whole
      rcases eq_nil_or_word_append filled all (ended _ (opens.head_isWord s)) apart whole with
        rfl | ⟨more, rfl, -, -, cut⟩
      · exact ⟨lexeme ++ s, rfl, by
          rw [opens.bound.replace_hit scanned, same, List.append_assoc, whole, List.nil_append]⟩
      · have member := within word (by simp [cut])
        rw [outer] at member
        cases member

variable {other : Idiom β}

/-- Main statement: where statements end their lines, they do so when hits of another idiom are
replaced, if what is put in brings none. By induction on the text.
-/
theorem EndsLines.replace (statements : other.Statements inner) (opens : idiom.Opens inner new)
    (brings : ∀ lexeme found rest, idiom.scan (lexeme ++ rest) = some (found, rest)
      → ∀ t, t.head?.any isWord = rest.head?.any isWord → other.EndsLines t
      → other.EndsLines (new found ++ t))
    (ends : other.EndsLines s)
    : other.EndsLines (idiom.replace new s) := by
  have bound := statements.bound
  induction s using opens.bound.text_induction with
  | nil => exact .nil bound
  | outside c s outside ih =>
      rw [opens.bound.replace_cons outside]
      refine .cons bound outside (ih (ends.of_append bound (a := [c]) (.inl ?_)))
      simpa using outside
  | hit found lexeme s scanned first last ih =>
      rw [opens.bound.replace_hit scanned]
      exact brings _ _ _ scanned _ (opens.head_isWord s) (ih (ends.of_append bound last))
  | word word s filled all ended nothing ih =>
      have ended' := (opens.head_isWord s).trans ended
      rw [opens.bound.replace_word filled all ended nothing]
      refine .word bound filled all ?_ (ih (ends.of_append bound (.inr ended)))
      -- what is read here is read of the text itself
      intro found rest scanned
      obtain ⟨lexeme, whole, -, closed, within, again⟩ := statements.reads _ _ _ scanned
      have apart : lexeme.getLast?.any isWord = false := by
        rw [closed]
        decide
      rcases eq_nil_or_word_append filled all ended' apart whole with
        rfl | ⟨more, rfl, same, apart', cut⟩
      · cases closed
      · rw [cut] at within
        obtain ⟨rest', rfl, rfl⟩ := opens.of_replace_eq_append apart' within same
        rw [← List.append_assoc] at ends
        exact opens.bound.blankLine_replace (ends.here bound (again rest'))

/-- Code stays code when hits are replaced by code, by induction on the text. -/
theorem Opens.codeOnly_replace (opens : idiom.Opens inner new)
    (code : ∀ lexeme found rest, idiom.scan (lexeme ++ rest) = some (found, rest)
      → ∀ c ∈ new found, c ∉ ['"', '\'', '/'])
    (only : codeOnly s = true)
    : codeOnly (idiom.replace new s) = true := by
  induction s using opens.bound.text_induction with
  | nil => exact only
  | outside c s outside ih =>
      rw [opens.bound.replace_cons outside]
      simp only [codeOnly, Bool.and_eq_true] at only ⊢
      refine ⟨⟨only.1.1, ?_⟩, ih only.2⟩
      rcases opens.head s with same | ⟨first, -⟩
      · rw [same]
        exact only.1.2
      · -- a word opens no comment
        have word : ∀ d, isWord d = true → (d == '/' || d == '*') = false := by
          intro d inWord
          rw [Bool.or_eq_false_iff]
          constructor <;>
            · refine beq_eq_false_iff_ne.mpr ?_
              rintro rfl
              exact absurd inWord (by decide)
        cases start : (idiom.replace new s).head? with
        | none => simp
        | some d =>
            rw [start] at first
            simp [word d first]
  | word word s filled all ended nothing ih =>
      rw [opens.bound.replace_word filled all ended nothing]
      exact codeOnly_append (fun c member => code_of_isWord (all c member))
        (ih (codeOnly_of_append only))
  | hit found lexeme s scanned first last ih =>
      rw [opens.bound.replace_hit scanned]
      exact codeOnly_append (code _ _ _ scanned) (ih (codeOnly_of_append only))

end

end Idiom

end RangeTuner.Text
