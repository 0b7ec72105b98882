import RangeTuner.Proofs.Text.Scanning

/-! Tokens of a text: its maximal words, and each of its other characters that is not blank. A text
that is put together at the edge of a word has the tokens of its parts, and a text with some first
token starts with it behind blanks.
-/

namespace RangeTuner.Text

/-- The token that ends with a word, given backwards; none where there is no word. -/
def endedWord (word : List Char) : List (List Char) :=
  if word.isEmpty then [] else [word.reverse]

/-- The token of a character outside words. -/
def signToken (c : Char) : List (List Char) :=
  if isBlank c then [] else [[c]]

/-- The tokens of a text whose current word so far, backwards, is `word`. -/
def tokensFrom (word : List Char) : List Char → List (List Char)
  | [] => endedWord word
  | c :: s =>
      if isWord c then tokensFrom (c :: word) s
      else endedWord word ++ (signToken c ++ tokensFrom [] s)

/-- The maximal words of a text and its single signs, in order. -/
def tokens (s : List Char) : List (List Char) :=
  tokensFrom [] s

/-- Tokens are compared as texts are. Modules that look tokens up in lists use this instance. -/
theorem lawfulBEq_token : LawfulBEq (List Char) :=
  inferInstance

-----------------------------------------------------------------------------------------
-- Characters of words and blanks
-----------------------------------------------------------------------------------------

/-- No range of one table meets a range of the other. -/
def apart (ranges others : List (Nat × Nat)) : Bool :=
  ranges.all fun r => others.all fun s => r.2 < s.1 || s.2 < r.1

theorem inRanges_of_apart {ranges others : List (Nat × Nat)} {c : Char}
    (separate : apart ranges others = true) (within : inRanges ranges c = true)
    : inRanges others c = false := by
  simp only [apart, List.all_eq_true, Bool.or_eq_true, decide_eq_true_eq] at separate
  simp only [inRanges, List.any_eq_true, Bool.and_eq_true, decide_eq_true_eq] at within
  simp only [inRanges, List.any_eq_false, Bool.and_eq_true, decide_eq_true_eq, not_and]
  intro s member
  obtain ⟨r, found, above, below⟩ := within
  have between := separate r found s member
  omega

/-- The letters, digits and the underscore of ASCII. -/
def letterRanges : List (Nat × Nat) :=
  [(0x30, 0x39), (0x41, 0x5A), (0x5F, 0x5F), (0x61, 0x7A)]

theorem inRanges_of_isAlphanum {c : Char} (letter : (c.isAlphanum || c == '_') = true)
    : inRanges letterRanges c = true := by
  have score : '_'.toNat = 0x5F := rfl
  simp only [Char.isAlphanum, Char.isAlpha, Char.isUpper, Char.isLower, Char.isDigit,
    Bool.or_eq_true, Bool.and_eq_true, decide_eq_true_eq, UInt32.le_iff_toNat_le, ge_iff_le,
    beq_iff_eq] at letter
  change (((65 ≤ c.toNat ∧ c.toNat ≤ 90) ∨ (97 ≤ c.toNat ∧ c.toNat ≤ 122))
    ∨ (48 ≤ c.toNat ∧ c.toNat ≤ 57)) ∨ c = '_' at letter
  simp only [inRanges, letterRanges, List.any_cons, List.any_nil, Bool.or_false, Bool.or_eq_true,
    Bool.and_eq_true, decide_eq_true_eq]
  rcases letter with ((upper | lower) | digit) | rfl
  · omega
  · omega
  · omega
  · omega

/-- A blank is in no word: no table of words meets the one of blanks. -/
theorem isWord_of_isBlank {c : Char} (blank : isBlank c = true)
    : isWord c = false := by
  unfold isWord
  split
  · cases letter : c.isAlphanum || c == '_' with
    | false => rfl
    | true =>
        have other : inRanges letterRanges c = false := inRanges_of_apart (by decide) blank
        rw [inRanges_of_isAlphanum letter] at other
        cases other
  · exact inRanges_of_apart (by decide +kernel) blank

theorem isBlank_of_isWord {c : Char} (inWord : isWord c = true)
    : isBlank c = false := by
  cases blank : isBlank c with
  | false => rfl
  | true =>
      rw [isWord_of_isBlank blank] at inWord
      cases inWord

-----------------------------------------------------------------------------------------
-- Tokens of a text that is put together
-----------------------------------------------------------------------------------------

variable {c : Char} {s t word : List Char}

theorem tokens_cons (outside : isWord c = false) (s : List Char)
    : tokens (c :: s) = signToken c ++ tokens s := by
  simp [tokens, tokensFrom, outside, endedWord]

theorem tokens_cons_of_isBlank (blank : isBlank c = true) (s : List Char)
    : tokens (c :: s) = tokens s := by
  simp [tokens_cons (isWord_of_isBlank blank), signToken, blank]

theorem tokens_cons_of_sign (outside : isWord c = false) (visible : isBlank c = false)
    (s : List Char)
    : tokens (c :: s) = [c] :: tokens s := by
  simp [tokens_cons outside, signToken, visible]

/-- A word that is being read ends at a character outside words, by induction on the text. -/
theorem tokensFrom_append (edge : t.head?.any isWord = false) (word s : List Char)
    : tokensFrom word (s ++ t) = tokensFrom word s ++ tokens t := by
  fun_induction tokensFrom word s with
  | case1 word =>
      cases t with
      | nil => simp [tokens, tokensFrom, endedWord]
      | cons c t =>
          have outside : isWord c = false := edge
          simp [tokensFrom, tokens, outside, endedWord]
  | case2 word d s inWord ih => simpa [tokensFrom, inWord] using ih
  | case3 word d s outside ih => simp [tokensFrom, outside, ih]

/-- Where no word goes over the edge of two texts, their tokens are put together. -/
theorem tokens_append (edge : s.getLast?.any isWord = false ∨ t.head?.any isWord = false)
    : tokens (s ++ t) = tokens s ++ tokens t := by
  rcases edge with ends | starts
  · rcases List.eq_nil_or_concat s with rfl | ⟨s, c, rfl⟩
    · rfl
    · have outside : isWord c = false := by simpa using ends
      have split : ∀ t, tokens (s ++ c :: t) = tokens s ++ tokens (c :: t) :=
        fun t => tokensFrom_append (by simpa using outside) [] s
      simp only [List.concat_eq_append, List.append_assoc, List.singleton_append, split,
        tokens_cons outside]
      simp [tokens, tokensFrom, endedWord]
  · exact tokensFrom_append starts [] s

theorem head?_word_append (filled : word ≠ []) (all : ∀ c ∈ word, isWord c = true) (s : List Char)
    : (word ++ s).head?.any isWord = true := by
  obtain ⟨c, tail, rfl⟩ := List.exists_cons_of_ne_nil filled
  exact all c (by simp)

theorem head?_word (filled : word ≠ []) (all : ∀ c ∈ word, isWord c = true)
    : word.head?.any isWord = true := by
  simpa using head?_word_append filled all []

/-- Blanks in front start no word. -/
theorem head?_blanks_append {gap : List Char} (blank : ∀ c ∈ gap, isBlank c = true)
    (ended : s.head?.any isWord = false)
    : (gap ++ s).head?.any isWord = false := by
  cases gap with
  | nil => exact ended
  | cons c gap => exact isWord_of_isBlank (blank c List.mem_cons_self)

/-- No word stands next where a gap does. -/
theorem head?_gap_append {gap : List Char} (wide : gap ≠ []) (blank : ∀ c ∈ gap, isBlank c = true)
    (s : List Char)
    : (gap ++ s).head?.any isWord = false := by
  obtain ⟨c, gap, rfl⟩ := List.exists_cons_of_ne_nil wide
  exact isWord_of_isBlank (blank c List.mem_cons_self)

/-- The last part of a text that does not end in a word does not either. -/
theorem apart_of_append (apart : (s ++ t).getLast?.any isWord = false)
    : t.getLast?.any isWord = false := by
  cases t with
  | nil => rfl
  | cons c t => rwa [List.getLast?_append_cons] at apart

theorem tokensFrom_of_word (all : ∀ c ∈ s, isWord c = true) (word : List Char)
    : tokensFrom word s = endedWord (s.reverse ++ word) := by
  induction s generalizing word with
  | nil => rfl
  | cons c s ih =>
      rw [List.forall_mem_cons] at all
      simp [tokensFrom, all.1, ih all.2]

theorem tokens_of_word (filled : word ≠ []) (all : ∀ c ∈ word, isWord c = true)
    : tokens word = [word] := by
  simp [tokens, tokensFrom_of_word all, endedWord, filled]

theorem tokens_word_append (filled : word ≠ []) (all : ∀ c ∈ word, isWord c = true)
    (edge : s.head?.any isWord = false)
    : tokens (word ++ s) = word :: tokens s := by
  rw [tokens_append (.inr edge), tokens_of_word filled all, List.singleton_append]

theorem tokens_blanks_append (all : ∀ c ∈ s, isBlank c = true) (t : List Char)
    : tokens (s ++ t) = tokens t := by
  induction s with
  | nil => rfl
  | cons c s ih =>
      rw [List.forall_mem_cons] at all
      rw [List.cons_append, tokens_cons_of_isBlank all.1, ih all.2]

theorem tokens_word_gap {gap : List Char} (filled : word ≠ []) (all : ∀ c ∈ word, isWord c = true)
    (wide : gap ≠ []) (blank : ∀ c ∈ gap, isBlank c = true) (s : List Char)
    : tokens (word ++ (gap ++ s)) = word :: tokens s := by
  rw [tokens_word_append filled all (head?_gap_append wide blank s), tokens_blanks_append blank]

theorem head?_dropWhile_isWord (s : List Char)
    : (s.dropWhile isWord).head?.any isWord = false := by
  have stops := List.head?_dropWhile_not isWord s
  cases first : (s.dropWhile isWord).head? with
  | none => rfl
  | some d =>
      rw [first] at stops
      exact stops

theorem takeWhile_isWord_letters {c : Char} (member : c ∈ s.takeWhile isWord)
    : isWord c = true :=
  List.all_eq_true.mp List.all_takeWhile c member

/-- A word that grows together with the text behind it takes its first word, if there is one. -/
theorem tokens_word_append_takeWhile (filled : word ≠ []) (all : ∀ c ∈ word, isWord c = true)
    (s : List Char)
    : tokens (word ++ s) = (word ++ s.takeWhile isWord) :: tokens (s.dropWhile isWord) := by
  have letters : ∀ c ∈ word ++ s.takeWhile isWord, isWord c = true := by
    intro c member
    rcases List.mem_append.mp member with first | last
    · exact all c first
    · exact takeWhile_isWord_letters last
  rw [← tokens_word_append (by simp [filled]) letters (head?_dropWhile_isWord s),
    List.append_assoc, List.takeWhile_append_dropWhile]

/-- The tokens behind the first word of a text are its last ones, whatever stands before it. -/
theorem tokens_dropWhile_suffix (before s : List Char)
    : tokens (s.dropWhile isWord) <:+ tokens (before ++ s) := by
  have cut : tokens ((before ++ s.takeWhile isWord) ++ s.dropWhile isWord)
      = tokens (before ++ s.takeWhile isWord) ++ tokens (s.dropWhile isWord) :=
    tokens_append (.inr (head?_dropWhile_isWord s))
  rw [List.append_assoc, List.takeWhile_append_dropWhile] at cut
  rw [cut]
  exact List.suffix_append _ _

theorem tokens_word_space (filled : word ≠ []) (all : ∀ c ∈ word, isWord c = true) (s : List Char)
    : tokens (word ++ ' ' :: s) = word :: tokens s := by
  have blank : ∀ c ∈ [' '], isBlank c = true := by
    intro c member
    rw [List.mem_singleton.mp member]
    decide
  exact tokens_word_gap filled all (by simp) blank s

-----------------------------------------------------------------------------------------
-- The first token of a text
-----------------------------------------------------------------------------------------

/-- A text is cut behind the word characters that it starts with, if any. -/
theorem exists_letters_append (s : List Char)
    : ∃ letters rest, s = letters ++ rest ∧ (∀ c ∈ letters, isWord c = true)
      ∧ rest.head?.any isWord = false :=
  ⟨s.takeWhile isWord, s.dropWhile isWord, List.takeWhile_append_dropWhile.symm,
    fun _ member => takeWhile_isWord_letters member, head?_dropWhile_isWord s⟩

/-- A text that starts with a word is cut behind it. -/
theorem exists_word_append (starts : s.head?.any isWord = true)
    : ∃ word rest, s = word ++ rest ∧ word ≠ [] ∧ (∀ c ∈ word, isWord c = true)
      ∧ rest.head?.any isWord = false := by
  obtain ⟨word, rest, rfl, all, ended⟩ := exists_letters_append s
  refine ⟨word, rest, rfl, ?_, all, ended⟩
  rintro rfl
  cases ended.symm.trans starts

/-- A text is empty, or starts with a blank, a sign or a whole word: to be used as the cases of an
induction on its length.
-/
theorem tokens_induction {motive : List Char → Prop} (nil : motive [])
    (blank : ∀ c s, isBlank c = true → motive s → motive (c :: s))
    (sign : ∀ c s, isWord c = false → isBlank c = false → motive s → motive (c :: s))
    (word : ∀ word s, word ≠ [] → (∀ c ∈ word, isWord c = true) → s.head?.any isWord = false
      → motive s → motive (word ++ s))
    (s : List Char)
    : motive s := by
  induction size : s.length using Nat.strong_induction_on generalizing s with
  | h size ih =>
      subst size
      cases s with
      | nil => exact nil
      | cons c s =>
          have shorter : motive s := ih s.length (by simp) s rfl
          cases inWord : isWord c with
          | false =>
              cases visible : isBlank c with
              | true => exact blank c s visible shorter
              | false => exact sign c s inWord visible shorter
          | true =>
              obtain ⟨letters, rest, whole, filled, all, ended⟩ :=
                exists_word_append (s := c :: s) inWord
              have positive := List.length_pos_iff.mpr filled
              rw [whole] at ih ⊢
              refine word letters rest filled all ended (ih _ ?_ _ rfl)
              rw [List.length_append]
              omega

/-- The text is one token in front of another text. -/
inductive IsToken : List Char → List Char → Prop
  | sign {c : Char} {rest : List Char} (outside : isWord c = false) (visible : isBlank c = false)
    : IsToken [c] rest
  | word {word rest : List Char} (filled : word ≠ []) (all : ∀ c ∈ word, isWord c = true)
    (ended : rest.head?.any isWord = false)
    : IsToken word rest

/-- The first token of a text stands behind blanks, in front of the other tokens. -/
theorem exists_of_tokens_eq_cons {token : List Char} {more : List (List Char)}
    (same : tokens s = token :: more)
    : ∃ gap rest, s = gap ++ (token ++ rest) ∧ (∀ c ∈ gap, isBlank c = true)
      ∧ IsToken token rest ∧ tokens rest = more := by
  induction s using tokens_induction with
  | nil => cases same
  | blank c s blank ih =>
      rw [tokens_cons_of_isBlank blank] at same
      obtain ⟨gap, rest, rfl, all, first, behind⟩ := ih same
      exact ⟨c :: gap, rest, rfl, List.forall_mem_cons.mpr ⟨blank, all⟩, first, behind⟩
  | sign c s outside visible =>
      rw [tokens_cons_of_sign outside visible] at same
      obtain ⟨rfl, rfl⟩ := List.cons.inj same
      exact ⟨[], s, rfl, by simp, .sign outside visible, rfl⟩
  | word word s filled all ended =>
      rw [tokens_word_append filled all ended] at same
      obtain ⟨rfl, rfl⟩ := List.cons.inj same
      exact ⟨[], s, rfl, by simp, .word filled all ended, rfl⟩

end RangeTuner.Text
