import RangeTuner.Proofs.Text.WordIdioms

/-! Tokens with the blanks between them. A text is the blanks that it starts with and its tokens,
each with the blanks behind it, so what a rewrite does to a text is known from what it does to
these. Main statements: the spacing of a text is the whole text and has its tokens, and what
replacing hits does to the spacing is told hit by hit.
-/

namespace RangeTuner.Text

/-- A token with the blanks behind it. -/
structure SpacedToken where
  token : List Char
  gap : List Char
deriving DecidableEq, Repr

/-- The spaced token with its token in another form. -/
def SpacedToken.map (form : List Char → List Char) (t : SpacedToken) : SpacedToken :=
  ⟨form t.token, t.gap⟩

/-- The blanks that a text starts with, and its tokens with the blanks behind them. -/
structure Spacing where
  lead : List Char
  spaced : List SpacedToken
deriving DecidableEq, Repr

namespace Spacing

/-- The text with this spacing. -/
def text (spacing : Spacing) : List Char :=
  spacing.lead ++ spacing.spaced.flatMap fun t => t.token ++ t.gap

def tokens (spacing : Spacing) : List (List Char) :=
  spacing.spaced.map SpacedToken.token

/-- The spacing with one more character in front: a blank comes before all tokens, a letter joins
the word that it stands at, and any other character is a token of its own.
-/
def cons (c : Char) (spacing : Spacing) : Spacing :=
  if isBlank c then ⟨c :: spacing.lead, spacing.spaced⟩
  else
    match spacing with
    | ⟨[], t :: ts⟩ =>
        if isWord c && t.token.head?.any isWord then ⟨[], ⟨c :: t.token, t.gap⟩ :: ts⟩
        else ⟨[], ⟨[c], []⟩ :: t :: ts⟩
    | ⟨gap, ts⟩ => ⟨[], ⟨[c], gap⟩ :: ts⟩

end Spacing

/-- The spacing of a text. -/
def spacing (s : List Char) : Spacing :=
  s.foldr Spacing.cons ⟨[], []⟩

variable {c : Char} {s t word gap : List Char}

theorem spacing_cons (c : Char) (s : List Char) : spacing (c :: s) = (spacing s).cons c :=
  rfl

theorem Spacing.text_cons (c : Char) (spacing : Spacing)
    : (spacing.cons c).text = c :: spacing.text := by
  unfold cons
  split
  · rfl
  · split
    · split <;> simp [text]
    · simp [text]

/-- The spacing of a text is the whole text. -/
theorem text_spacing (s : List Char) : (spacing s).text = s := by
  induction s with
  | nil => rfl
  | cons c s ih => rw [spacing_cons, Spacing.text_cons, ih]

-----------------------------------------------------------------------------------------
-- Texts that are put together
-----------------------------------------------------------------------------------------

theorem spacing_cons_of_isBlank (blank : isBlank c = true) (s : List Char)
    : spacing (c :: s) = ⟨c :: (spacing s).lead, (spacing s).spaced⟩ := by
  rw [spacing_cons]
  unfold Spacing.cons
  rw [if_pos blank]

/-- A character that does not join the word behind it is a token of its own. -/
theorem spacing_cons_of_apart (visible : isBlank c = false)
    (apart : isWord c = false ∨ s.head?.any isWord = false)
    : spacing (c :: s) = ⟨[], ⟨[c], (spacing s).lead⟩ :: (spacing s).spaced⟩ := by
  have whole := text_spacing s
  rw [spacing_cons]
  generalize spacing s = behind at whole
  unfold Spacing.cons
  rw [if_neg (ne_true_of_eq_false visible)]
  split
  · next t ts =>
      have separate : (isWord c && t.token.head?.any isWord) = false := by
        rcases apart with outside | ended
        · rw [outside, Bool.false_and]
        · -- the first token starts as the text does
          cases first : t.token with
          | nil => exact Bool.and_false _
          | cons d token =>
              simp only [Spacing.text, List.nil_append, List.flatMap_cons, first,
                List.cons_append] at whole
              have plain : isWord d = false := by simpa [← whole] using ended
              simp [plain]
      rw [separate]
      rfl
  · rfl

theorem spacing_cons_of_sign (outside : isWord c = false) (visible : isBlank c = false)
    (s : List Char)
    : spacing (c :: s) = ⟨[], ⟨[c], (spacing s).lead⟩ :: (spacing s).spaced⟩ :=
  spacing_cons_of_apart visible (.inl outside)

/-- A whole word is a token, by induction on it. -/
theorem spacing_word_append (filled : word ≠ []) (all : ∀ c ∈ word, isWord c = true)
    (ended : s.head?.any isWord = false)
    : spacing (word ++ s) = ⟨[], ⟨word, (spacing s).lead⟩ :: (spacing s).spaced⟩ := by
  induction word with
  | nil => exact absurd rfl filled
  | cons c word ih =>
      rw [List.forall_mem_cons] at all
      have visible := isBlank_of_isWord all.1
      cases word with
      | nil => exact spacing_cons_of_apart visible (.inr ended)
      | cons d word =>
          have inWord : isWord d = true := all.2 d (by simp)
          rw [List.cons_append, spacing_cons, ih (by simp) all.2]
          simp [Spacing.cons, visible, all.1, inWord]

theorem spacing_token_append (first : IsToken word s)
    : spacing (word ++ s) = ⟨[], ⟨word, (spacing s).lead⟩ :: (spacing s).spaced⟩ := by
  cases first with
  | sign outside visible => exact spacing_cons_of_sign outside visible s
  | word filled all ended => exact spacing_word_append filled all ended

theorem spacing_blanks_append (all : ∀ c ∈ gap, isBlank c = true) (s : List Char)
    : spacing (gap ++ s) = ⟨gap ++ (spacing s).lead, (spacing s).spaced⟩ := by
  induction gap with
  | nil => rfl
  | cons c gap ih =>
      rw [List.forall_mem_cons] at all
      rw [List.cons_append, spacing_cons_of_isBlank all.1, ih all.2]
      rfl

theorem spacing_word_gap (filled : word ≠ []) (all : ∀ c ∈ word, isWord c = true)
    (wide : gap ≠ []) (blank : ∀ c ∈ gap, isBlank c = true) (s : List Char)
    : spacing (word ++ (gap ++ s))
      = ⟨[], ⟨word, gap ++ (spacing s).lead⟩ :: (spacing s).spaced⟩ := by
  rw [spacing_word_append filled all (head?_gap_append wide blank s), spacing_blanks_append blank]

theorem spacing_word_space (filled : word ≠ []) (all : ∀ c ∈ word, isWord c = true)
    (s : List Char)
    : spacing (word ++ ' ' :: s)
      = ⟨[], ⟨word, ' ' :: (spacing s).lead⟩ :: (spacing s).spaced⟩ := by
  have blank : ∀ c ∈ [' '], isBlank c = true := by
    intro c member
    rw [List.mem_singleton.mp member]
    decide
  exact spacing_word_gap filled all (by simp) blank s

/-- The tokens of a spacing are those of the text. -/
theorem tokens_spacing (s : List Char) : (spacing s).tokens = tokens s := by
  induction s using tokens_induction with
  | nil => rfl
  | blank c s blank ih =>
      rw [spacing_cons_of_isBlank blank, tokens_cons_of_isBlank blank, ← ih]
      rfl
  | sign c s outside visible ih =>
      rw [spacing_cons_of_sign outside visible, tokens_cons_of_sign outside visible, ← ih]
      rfl
  | word word s filled all ended ih =>
      rw [spacing_word_append filled all ended, tokens_word_append filled all ended, ← ih]
      rfl

theorem lead_of_visible (visible : s.head?.any isBlank = false) : (spacing s).lead = [] := by
  cases s with
  | nil => rfl
  | cons c s =>
      have here : isBlank c = false := visible
      rw [spacing_cons]
      unfold Spacing.cons
      rw [if_neg (ne_true_of_eq_false here)]
      split
      · split <;> rfl
      · rfl

/-- Spaced tokens start with a word. -/
def startsWord (ts : List SpacedToken) : Bool :=
  ts.head?.any fun t => t.token.head?.any isWord

/-- A text starts with a word where no blank and no sign stands first. -/
theorem head?_eq_startsWord (s : List Char)
    : s.head?.any isWord = ((spacing s).lead.isEmpty && startsWord (spacing s).spaced) := by
  induction s using tokens_induction with
  | nil => rfl
  | blank c s blank => simp [spacing_cons_of_isBlank blank, isWord_of_isBlank blank]
  | sign c s outside visible =>
      simp [spacing_cons_of_sign outside visible, outside, startsWord]
  | word word s filled all ended =>
      rw [spacing_word_append filled all ended, head?_word_append filled all]
      simpa [startsWord] using head?_word filled all

/-- Behind a sign a text goes on by itself: what stands before has the same spacing whatever
follows, by induction on it.
-/
theorem exists_spacing_sign (outside : isWord c = false) (visible : isBlank c = false)
    (s : List Char)
    : ∃ lead ts, ∀ t, spacing (s ++ c :: t)
      = ⟨lead, ts ++ ⟨[c], (spacing t).lead⟩ :: (spacing t).spaced⟩ := by
  induction s with
  | nil => exact ⟨[], [], fun t => spacing_cons_of_sign outside visible t⟩
  | cons d s ih =>
      obtain ⟨lead, ts, behind⟩ := ih
      simp only [List.cons_append, spacing_cons, behind]
      cases blank : isBlank d with
      | true => exact ⟨d :: lead, ts, fun t => by simp [Spacing.cons, blank]⟩
      | false =>
          cases lead with
          | cons e lead =>
              exact ⟨[], ⟨[d], e :: lead⟩ :: ts, fun t => by simp [Spacing.cons, blank]⟩
          | nil =>
              cases ts with
              | nil =>
                  exact ⟨[], [⟨[d], []⟩], fun t => by simp [Spacing.cons, blank, outside]⟩
              | cons first ts =>
                  cases joins : isWord d && first.token.head?.any isWord with
                  | true =>
                      refine ⟨[], ⟨d :: first.token, first.gap⟩ :: ts, fun t => ?_⟩
                      simp [Spacing.cons, blank, joins]
                  | false =>
                      refine ⟨[], ⟨[d], []⟩ :: first :: ts, fun t => ?_⟩
                      simp [Spacing.cons, blank, joins]

/-- A text that ends in a sign and has only words before it. -/
theorem spacing_statement (outside : isWord c = false) (visible : isBlank c = false)
    (words : List (List Char)) (starts : (s ++ [c]).head?.any isBlank = false)
    (same : tokens (s ++ [c]) = words ++ [[c]])
    : ∃ ts : List SpacedToken, ts.map SpacedToken.token = words
      ∧ ∀ t, spacing (s ++ c :: t) = ⟨[], ts ++ ⟨[c], (spacing t).lead⟩ :: (spacing t).spaced⟩ := by
  obtain ⟨lead, ts, cut⟩ := exists_spacing_sign outside visible s
  have whole := cut []
  have leading := lead_of_visible starts
  rw [whole] at leading
  rw [← tokens_spacing, whole] at same
  obtain rfl : lead = [] := leading
  have named : ts.map SpacedToken.token ++ [[c]] = words ++ [[c]] := by
    simpa [Spacing.tokens, spacing] using same
  exact ⟨ts, List.append_cancel_right named, cut⟩

-----------------------------------------------------------------------------------------
-- Replaced hits
-----------------------------------------------------------------------------------------

/-- A text that starts with a word has no blanks in front, whatever follows. -/
theorem lead_of_starts {start : List Char} (starts : start.head?.any isWord = true) (t : List Char)
    : (start ++ t).head?.any isWord = true ∧ (spacing (start ++ t)).lead = [] := by
  cases start with
  | nil => cases starts
  | cons c start => exact ⟨starts, lead_of_visible (isBlank_of_isWord starts)⟩

/-- A relation between spaced tokens holds between those of a text before and after hits are
replaced if it goes on over each token where nothing is found and over each hit, by induction on
the text.
-/
theorem Idiom.WordBound.spacing_replace {α : Type} {idiom : Idiom α} (bound : idiom.WordBound)
    (new : α → List Char) (related : List SpacedToken → List SpacedToken → Prop)
    (starts : ∀ found lexeme rest, idiom.scan (lexeme ++ rest) = some (found, rest)
      → (new found).head?.any isWord = true)
    (nil : related [] [])
    (kept : ∀ token s us, IsToken token s → idiom.scan (token ++ s) = none
      → related (spacing s).spaced us
      → related (⟨token, (spacing s).lead⟩ :: (spacing s).spaced)
        (⟨token, (spacing s).lead⟩ :: us))
    (hit : ∀ found lexeme s t, idiom.scan (lexeme ++ s) = some (found, s)
      → t.head?.any isWord = s.head?.any isWord → (spacing t).lead = (spacing s).lead
      → related (spacing s).spaced (spacing t).spaced
      → related (spacing (lexeme ++ s)).spaced (spacing (new found ++ t)).spaced)
    (s : List Char)
    : (spacing (idiom.replace new s)).lead = (spacing s).lead
      ∧ related (spacing s).spaced (spacing (idiom.replace new s)).spaced := by
  have edge := bound.head?_replace fun found lexeme rest scanned t =>
    (lead_of_starts (starts found lexeme rest scanned) t).1
  induction s using bound.text_induction with
  | nil => exact ⟨rfl, nil⟩
  | outside c s outside ih =>
      obtain ⟨lead, behind⟩ := ih
      rw [bound.replace_cons outside]
      cases visible : isBlank c with
      | true =>
          simp only [spacing_cons_of_isBlank visible]
          exact ⟨congrArg _ lead, behind⟩
      | false =>
          have nothing : idiom.scan ([c] ++ s) = none :=
            bound.scan_of_outside (by simpa using outside)
          simp only [spacing_cons_of_sign outside visible, lead]
          exact ⟨trivial, kept [c] s _ (.sign outside visible) nothing behind⟩
  | word word s filled all ended nothing ih =>
      obtain ⟨lead, behind⟩ := ih
      rw [bound.replace_word filled all ended nothing,
        spacing_word_append filled all ((edge s).trans ended),
        spacing_word_append filled all ended, lead]
      exact ⟨rfl, kept word s _ (.word filled all ended) nothing behind⟩
  | hit found lexeme s scanned first last ih =>
      obtain ⟨lead, behind⟩ := ih
      rw [bound.replace_hit scanned, (lead_of_starts (starts found lexeme s scanned) _).2,
        (lead_of_starts first s).2]
      exact ⟨rfl, hit found lexeme s _ scanned (edge s) lead behind⟩

end RangeTuner.Text
