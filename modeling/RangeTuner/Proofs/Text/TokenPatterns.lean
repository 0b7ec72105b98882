import RangeTuner.Proofs.Text.WordIdioms

/-! Patterns of tokens: a first word and what may follow it. A template that replaces its hits may
leave a pattern, make one at an edge of what it puts in, or remove it. Main statement: a pattern in
a text with its hits replaced has a source in the text itself.
-/

namespace RangeTuner.Text

/-- A pattern: its first word, what may follow, and the tokens that this is made of. -/
structure TokenPattern where
  first : List Char
  inner : List Char → Bool
  follows : List (List Char) → Prop
  long : 2 ≤ first.length
  inside : ∀ ts, follows ts → ∀ token ∈ ts, inner token = true

namespace TokenPattern

variable {pattern : TokenPattern} {token : List Char} {ts us : List (List Char)}

/-- The tokens start with the pattern. -/
def Starts (pattern : TokenPattern) (ts : List (List Char)) : Prop :=
  ∃ more, pattern.follows more ∧ pattern.first :: more <+: ts

/-- Somewhere among the tokens the pattern stands. -/
def Within (pattern : TokenPattern) (ts : List (List Char)) : Prop :=
  ∃ more, pattern.follows more ∧ pattern.first :: more <:+: ts

theorem Within.mono (within : pattern.Within ts) (part : ts <:+: us)
    : pattern.Within us := by
  obtain ⟨more, follows, inside⟩ := within
  exact ⟨more, follows, inside.trans part⟩

theorem Starts.within (starts : pattern.Starts ts)
    : pattern.Within ts := by
  obtain ⟨more, follows, start⟩ := starts
  exact ⟨more, follows, start.isInfix⟩

theorem not_within_nil : ¬ pattern.Within [] := by
  rintro ⟨more, -, inside⟩
  cases List.infix_nil.mp inside

theorem within_cons
    : pattern.Within (token :: ts) ↔ pattern.Starts (token :: ts) ∨ pattern.Within ts := by
  simp only [Within, Starts, List.infix_cons_iff, and_or_left, exists_or]

theorem within_cons_of_ne (other : token ≠ pattern.first)
    : pattern.Within (token :: ts) ↔ pattern.Within ts := by
  rw [within_cons]
  refine or_iff_right ?_
  rintro ⟨more, -, start⟩
  exact other (List.cons_prefix_cons.mp start).1.symm

theorem within_append_of_ne (others : ∀ token ∈ us, token ≠ pattern.first)
    : pattern.Within (us ++ ts) ↔ pattern.Within ts := by
  induction us with
  | nil => rfl
  | cons token us ih =>
      rw [List.forall_mem_cons] at others
      rw [List.cons_append, within_cons_of_ne others.1, ih others.2]

theorem sign_ne_first (c : Char) : [c] ≠ pattern.first := by
  intro same
  have long := pattern.long
  rw [← same] at long
  exact absurd long (by simp)

theorem signToken_ne_first {c : Char} : ∀ token ∈ signToken c, token ≠ pattern.first := by
  intro token member
  unfold signToken at member
  split at member
  · cases member
  · rw [List.mem_singleton.mp member]
    exact sign_ne_first c

/-- The tokens that the pattern could go on with. -/
abbrev going (pattern : TokenPattern) (ts : List (List Char)) : List (List Char) :=
  ts.takeWhile pattern.inner

/-- Whether the pattern starts is told by the tokens that it could go on with. -/
theorem Starts.mono (starts : pattern.Starts (token :: ts))
    (further : pattern.going ts <+: pattern.going us)
    : pattern.Starts (token :: us) := by
  obtain ⟨more, follows, start⟩ := starts
  obtain ⟨rfl, rest, rfl⟩ := List.cons_prefix_cons.mp start
  rw [going, List.takeWhile_append_of_pos (pattern.inside more follows)] at further
  refine ⟨more, follows, List.cons_prefix_cons.mpr ⟨rfl, ?_⟩⟩
  exact ((List.prefix_append more _).trans further).trans (List.takeWhile_prefix _)

theorem going_cons_mono (further : pattern.going ts <+: pattern.going us)
    : pattern.going (token :: ts) <+: pattern.going (token :: us) := by
  simp only [going, List.takeWhile_cons]
  split
  · exact List.cons_prefix_cons.mpr ⟨rfl, further⟩
  · exact List.prefix_rfl

theorem Starts.of_prefix (starts : pattern.Starts ts) (part : ts <+: us)
    : pattern.Starts us := by
  obtain ⟨more, follows, start⟩ := starts
  exact ⟨more, follows, start.trans part⟩

/-- A token that is in no pattern cuts tokens in two, by induction on those before it. -/
theorem within_append_cons (other : token ≠ pattern.first) (outer : pattern.inner token = false)
    : pattern.Within (us ++ token :: ts) ↔ pattern.Within us ∨ pattern.Within ts := by
  induction us with
  | nil => simp only [List.nil_append, within_cons_of_ne other, not_within_nil, false_or]
  | cons first us ih =>
      have alike : pattern.Starts (first :: (us ++ token :: ts))
          ↔ pattern.Starts (first :: us) := by
        constructor
        · refine fun starts => starts.mono ?_
          rw [going, List.takeWhile_append]
          split
          · next full =>
              rw [List.takeWhile_cons_of_neg (ne_true_of_eq_false outer), List.append_nil, going,
                (List.takeWhile_prefix _).eq_of_length full]
          · exact List.prefix_rfl
        · exact fun starts => starts.of_prefix (List.prefix_append (first :: us) _)
      rw [List.cons_append, within_cons, within_cons, ih, alike, or_assoc]

/-- A sign that is in no pattern cuts a text in two. -/
theorem within_sign {c : Char} (outside : isWord c = false) (visible : isBlank c = false)
    (outer : pattern.inner [c] = false) (s t : List Char)
    : pattern.Within (tokens (s ++ c :: t))
      ↔ pattern.Within (tokens s) ∨ pattern.Within (tokens t) := by
  have edge : (c :: t).head?.any isWord = false := outside
  rw [tokens_append (.inr edge), tokens_cons_of_sign outside visible,
    within_append_cons (sign_ne_first c) outer]

-----------------------------------------------------------------------------------------
-- Replaced hits
-----------------------------------------------------------------------------------------

section

variable {α : Type} {idiom : Idiom α} {new : α → List Char} {source : List Char → Prop}

/-- Whatever pattern stands in a text with its hits replaced has a source in the text: at a place
where the idiom finds nothing, or in a hit.
-/
structure Traces (pattern : TokenPattern) (idiom : Idiom α) (new : α → List Char)
    (source : List Char → Prop)
    : Prop where
  bound : idiom.WordBound
  mono : ∀ s t, tokens s <:+ tokens t → source s → source t
  place : ∀ s, s.head?.any isBlank = false → idiom.scan s = none → pattern.Starts (tokens s)
    → source s
  starts : ∀ s found rest, idiom.scan s = some (found, rest) → ∀ t,
    (new found ++ t).head?.any isWord = true ∧ pattern.going (tokens (new found ++ t)) = []
  hit : ∀ lexeme found rest t, idiom.scan (lexeme ++ rest) = some (found, rest)
    → tokens (lexeme ++ rest) = tokens lexeme ++ tokens rest
    → t.head?.any isWord = rest.head?.any isWord
    → pattern.Within (tokens (new found ++ t))
    → pattern.Within (tokens t) ∨ source (lexeme ++ rest)

/-- A text with its hits replaced starts with a word where the text does. -/
theorem Traces.head?_replace (traces : pattern.Traces idiom new source) (s : List Char)
    : (idiom.replace new s).head?.any isWord = s.head?.any isWord :=
  traces.bound.head?_replace
    (fun found _ rest scanned t => (traces.starts _ found rest scanned t).1) s

/-- What the pattern could go on with at the start of a text with its hits replaced is no more than
in the text itself.
-/
theorem Traces.going_replace (traces : pattern.Traces idiom new source) (s : List Char)
    : pattern.going (tokens (idiom.replace new s)) <+: pattern.going (tokens s) := by
  have bound := traces.bound
  induction s using bound.text_induction with
  | nil => exact List.prefix_rfl
  | outside c s outside ih =>
      rw [bound.replace_cons outside]
      cases visible : isBlank c with
      | true => rwa [tokens_cons_of_isBlank visible, tokens_cons_of_isBlank visible]
      | false =>
          rw [tokens_cons_of_sign outside visible, tokens_cons_of_sign outside visible]
          exact going_cons_mono ih
  | word word s filled all ended nothing ih =>
      rw [bound.replace_word filled all ended nothing, tokens_word_append filled all ended,
        tokens_word_append filled all ((traces.head?_replace s).trans ended)]
      exact going_cons_mono ih
  | hit found lexeme s scanned =>
      rw [bound.replace_hit scanned, (traces.starts _ found s scanned _).2]
      exact List.nil_prefix

/-- A pattern in a text with its hits replaced has a source, by induction on the text. -/
theorem Traces.source_of_replace (traces : pattern.Traces idiom new source) {s : List Char}
    (within : pattern.Within (tokens (idiom.replace new s)))
    : source s := by
  have bound := traces.bound
  induction s using bound.text_induction with
  | nil => exact absurd within not_within_nil
  | outside c s outside ih =>
      have behind : tokens s <:+ tokens (c :: s) := by
        rw [tokens_cons outside]
        exact List.suffix_append _ _
      rw [bound.replace_cons outside, tokens_cons outside,
        within_append_of_ne signToken_ne_first] at within
      exact traces.mono s _ behind (ih within)
  | word word s filled all ended nothing ih =>
      have cut := tokens_word_append filled all ended
      rw [bound.replace_word filled all ended nothing,
        tokens_word_append filled all ((traces.head?_replace s).trans ended), within_cons] at within
      rcases within with here | later
      · have first : IsToken word s := .word filled all ended
        exact traces.place _ first.head_visible nothing (cut ▸ here.mono (traces.going_replace s))
      · refine traces.mono s _ ?_ (ih later)
        rw [cut]
        exact List.suffix_cons _ _
  | hit found lexeme s scanned first last ih =>
      have cut := tokens_append last
      rw [bound.replace_hit scanned] at within
      rcases traces.hit lexeme found s _ scanned cut (traces.head?_replace s) within with
        behind | here
      · refine traces.mono s _ ?_ (ih behind)
        rw [cut]
        exact List.suffix_append _ _
      · exact here

end

/-- An idiom whose hits start with the pattern does not occur where the pattern does not stand. -/
theorem occursIn_eq_false {α : Type} {idiom : Idiom α} (bound : idiom.WordBound)
    (reads : ∀ lexeme rest found, idiom.scan (lexeme ++ rest) = some (found, rest)
      → pattern.Within (tokens lexeme))
    {s : List Char} (absent : ¬ pattern.Within (tokens s))
    : idiom.occursIn s = false := by
  refine Bool.eq_false_iff.mpr ?_
  intro occurs
  obtain ⟨start, lexeme, rest, found, rfl, scanned, cut⟩ := bound.exists_of_occursIn occurs
  refine absent ((reads lexeme rest found scanned).mono ?_)
  rw [cut, ← List.append_assoc]
  exact List.infix_append _ _ _

end TokenPattern

end RangeTuner.Text
