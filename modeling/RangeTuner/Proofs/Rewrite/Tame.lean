import RangeTuner.Proofs.Decimal.Notation
import RangeTuner.Proofs.Rewrite.Untouched

/-! Texts that are quiet for the templates and lack some signs, such as what ends a comment.
Whether a fixed text is one can be computed. Numbers in it do not matter, since what they are
made of starts no hit. Main statements: how such texts are put together, numbers among their
parts.
-/

namespace RangeTuner.Rewrite

open RangeTuner.Decimal RangeTuner.Text

instance (s : List Char) : Decidable (Quiet calm s) :=
  decidable_of_iff (quietFrom calm none s = true ∧ s.getLast?.any isWord = false)
    ⟨fun ⟨within, ends⟩ => ⟨within, ends⟩, fun ⟨within, ends⟩ => ⟨within, ends⟩⟩

/-- No template but one starts a hit in the text, and the text has none of the signs. -/
structure Tame (signs s : List Char) : Prop where
  quiet : Quiet calm s
  free : ∀ c ∈ s, c ∉ signs

/-- The text is tame but for its end, which may be in the middle of a word. -/
structure TameStart (signs s : List Char) : Prop where
  within : quietFrom calm none s = true
  free : ∀ c ∈ s, c ∉ signs

-- The characters of a text are checked one by one, not all characters there are.

instance (signs s : List Char) : Decidable (Tame signs s) :=
  decidable_of_iff (Quiet calm s ∧ (s.all fun c => c ∉ signs) = true)
    ⟨fun ⟨quiet, free⟩ => ⟨quiet, by simpa using free⟩,
      fun ⟨quiet, free⟩ => ⟨quiet, by simpa using free⟩⟩

instance (signs s : List Char) : Decidable (TameStart signs s) :=
  decidable_of_iff (quietFrom calm none s = true ∧ (s.all fun c => c ∉ signs) = true)
    ⟨fun ⟨within, free⟩ => ⟨within, by simpa using free⟩,
      fun ⟨within, free⟩ => ⟨within, by simpa using free⟩⟩

/-- Numbers have none of the signs. -/
def NotInNumbers (signs : List Char) : Prop :=
  ∀ c ∈ signs, ¬ IsFigure c ∧ ∀ word ∈ notFinite, c ∉ word

instance (c : Char) : Decidable (IsFigure c) :=
  inferInstanceAs (Decidable (c.isDigit = true ∨ c = '-' ∨ c = '.'))

instance (signs : List Char) : Decidable (NotInNumbers signs) :=
  decidable_of_iff ((signs.all fun c => ¬ IsFigure c ∧ ∀ word ∈ notFinite, c ∉ word) = true)
    (by simp [NotInNumbers])

/-- The first letters of the words that hits start with. -/
def openingLetters : List Char :=
  ['t', 'i', 'p', 'g', 'd', 'f']

theorem calm_of_first {c : Char} (other : c ∉ openingLetters) (s : List Char)
    : calm (c :: s) = true := by
  simp only [openingLetters, List.mem_cons, List.not_mem_nil, or_false, not_or] at other
  obtain ⟨t, i, p, g, d, f⟩ := other
  simp [calm, openingWords, openingTypes, clashes, Ne.symm t, Ne.symm i, Ne.symm p, Ne.symm g,
    Ne.symm d, Ne.symm f]

/-- A text without opening letters is quiet, by induction on it. -/
theorem quietFrom_of_letters {s : List Char} (others : ∀ c ∈ s, c ∉ openingLetters)
    (before : Option Char)
    : quietFrom calm before s = true := by
  induction s generalizing before with
  | nil => rfl
  | cons c s ih =>
      rw [List.forall_mem_cons] at others
      simp [quietFrom, calm_of_first others.1, ih others.2]

theorem not_openingLetter_of_isFigure {c : Char} (figure : IsFigure c)
    : c ∉ openingLetters := by
  intro letter
  simp only [openingLetters, List.mem_cons, List.not_mem_nil, or_false] at letter
  rcases letter with rfl | rfl | rfl | rfl | rfl | rfl <;> exact absurd figure (by decide)

/-- What is quiet at the start of a text is quiet after whatever stands before it. -/
theorem quietFrom_of_none {s : List Char} (quiet : quietFrom calm none s = true)
    (before : Option Char)
    : quietFrom calm before s = true := by
  cases s with
  | nil => rfl
  | cons c s =>
      simp only [quietFrom, Option.any_none, Bool.false_or, Bool.and_eq_true] at quiet
      simp [quietFrom, quiet.1, quiet.2]

namespace Tame

variable {signs s t : List Char}

theorem nil : Tame signs [] :=
  ⟨.nil, by simp⟩

theorem append (first : Tame signs s) (second : Tame signs t)
    : Tame signs (s ++ t) := by
  refine ⟨first.quiet.append calm_lasting second.quiet, fun c member => ?_⟩
  exact (List.mem_append.mp member).elim (first.free c) (second.free c)

/-- What is put before a tame text that is not empty may end in the middle of a word. -/
theorem prepend (start : TameStart signs s) (tame : Tame signs t) (filled : t ≠ [])
    : Tame signs (s ++ t) := by
  refine ⟨⟨quietFrom_append calm_lasting start.within (quietFrom_of_none tame.quiet.within _), ?_⟩,
    fun c member => (List.mem_append.mp member).elim (start.free c) (tame.free c)⟩
  -- the whole text ends as its second part does
  obtain ⟨c, last⟩ := Option.isSome_iff_exists.mp (List.getLast?_isSome.mpr filled)
  have ends := tame.quiet.ends
  rw [last] at ends
  simpa [List.getLast?_append, last] using ends

/-- Figures can be put before a tame text. -/
theorem figures_append (apart : NotInNumbers signs) (figures : ∀ c ∈ s, IsFigure c)
    (tame : Tame signs t) (filled : t ≠ [])
    : Tame signs (s ++ t) :=
  have letters : ∀ c ∈ s, c ∉ openingLetters :=
    fun c member => not_openingLetter_of_isFigure (figures c member)
  .prepend ⟨quietFrom_of_letters letters none,
    fun c member sign => (apart c sign).1 (figures c member)⟩ tame filled

/-- A number can be put before a tame text. -/
theorem number_append (apart : NotInNumbers signs) (places : Nat) (x : Float)
    (tame : Tame signs t) (filled : t ≠ [])
    : Tame signs ((fixed places x).toList ++ t) := by
  rcases fixed_cases places x with word | figures
  · have quiet : ∀ word ∈ notFinite, quietFrom calm none word = true := by decide
    exact .prepend ⟨quiet _ word, fun c member sign => (apart c sign).2 _ word member⟩ tame
      filled
  · exact .figures_append apart figures tame filled

end Tame

end RangeTuner.Rewrite
