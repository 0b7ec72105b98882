import Mathlib
import RangeTuner.Proofs.Text.Hits
import RangeTuner.Text.Braces

/-! Braces and replacement. Every hit of an idiom that is replaced by a text without braces takes
its excess of braces out of the text. Main statements: the excess of the text that is left, and
that balance is kept where every hit has as many opening as closing braces.
-/

namespace RangeTuner.Text

-----------------------------------------------------------------------------------------
-- The excess of braces
-----------------------------------------------------------------------------------------

/-- The excess of a text with one more character in front. -/
theorem excess_cons (c : Char) (s : List Char)
    : excess (c :: s) = excess [c] + excess s := by
  by_cases opens : c = '{'
  · subst opens
    simp only [excess]
    omega
  · by_cases closes : c = '}'
    · subst closes
      simp only [excess]
      omega
    · simp [excess]

/-- The excess of two texts, one after the other, by induction on the first. -/
theorem excess_append (s t : List Char)
    : excess (s ++ t) = excess s + excess t := by
  induction s with
  | nil => simp [excess]
  | cons c s ih =>
      rw [List.cons_append, excess_cons, ih, excess_cons c s]
      omega

/-- The excess is the difference of the numbers of braces, by induction on the text. -/
theorem excess_eq_count (s : List Char)
    : excess s = (s.count '{' : Int) - s.count '}' := by
  induction s with
  | nil => rfl
  | cons c s ih =>
      rw [excess_cons, ih]
      by_cases opens : c = '{'
      · subst opens
        simp [excess]
        omega
      · by_cases closes : c = '}'
        · subst closes
          simp [excess]
          omega
        · simp [excess, opens, closes]

def NoBrace (c : Char) : Prop :=
  c ≠ '{' ∧ c ≠ '}'

instance (c : Char) : Decidable (NoBrace c) :=
  inferInstanceAs (Decidable (_ ∧ _))

/-- A text is without braces when a check of its characters says so. -/
theorem noBrace_of_all {s : List Char} (checked : (s.all fun c => decide (NoBrace c)) = true)
    : ∀ c ∈ s, NoBrace c :=
  fun c member => of_decide_eq_true (List.all_eq_true.mp checked c member)

/-- A text without braces has no excess. -/
theorem excess_of_noBrace {s : List Char} (plain : ∀ c ∈ s, NoBrace c)
    : excess s = 0 := by
  have opening : s.count '{' = 0 := List.count_eq_zero.mpr fun member => (plain _ member).1 rfl
  have closing : s.count '}' = 0 := List.count_eq_zero.mpr fun member => (plain _ member).2 rfl
  rw [excess_eq_count, opening, closing]
  rfl

theorem excess_of_prefix_noBrace {start s : List Char} (begins : start <+: s)
    (plain : ∀ c ∈ s, NoBrace c)
    : excess start = 0 :=
  excess_of_noBrace fun c member => plain c (begins.subset member)

/-- A beginning of two texts ends in the first, or goes on in the second. -/
theorem beginning_of_append {start s t : List Char} (begins : start <+: s ++ t)
    : start <+: s ∨ ∃ later, later <+: t ∧ start = s ++ later := by
  obtain ⟨rest, split⟩ := begins
  rcases List.append_eq_append_iff.mp split with ⟨more, rfl, -⟩ | ⟨later, rfl, rfl⟩
  · exact .inl (List.prefix_append start more)
  · exact .inr ⟨later, List.prefix_append later rest, rfl⟩

/-- A text is balanced when its beginnings of every length are. -/
theorem balanced_iff_take (s : List Char)
    : Balanced s ↔ excess s = 0 ∧ ∀ n < s.length + 1, 0 ≤ excess (s.take n) := by
  refine and_congr_right fun _ => ⟨fun kept n _ => kept _ (List.take_prefix n s), ?_⟩
  intro kept start begins
  rw [List.prefix_iff_eq_take.mp begins]
  exact kept _ (Nat.lt_succ_of_le begins.length_le)

instance (s : List Char) : Decidable (Balanced s) :=
  decidable_of_iff _ (balanced_iff_take s).symm

-----------------------------------------------------------------------------------------
-- Replacing the hits of an idiom
-----------------------------------------------------------------------------------------

variable {α : Type} {comment : List Char}

/-- A comment without braces takes the excess of every hit out of the text, by induction on the
pieces.
-/
theorem excess_commented (plain : ∀ c ∈ comment, NoBrace c) (pieces : List (Piece α))
    : excess (pieces.flatMap (Piece.commented comment))
      = excess (pieces.flatMap Piece.text)
        - ((pieces.filterMap Piece.lexeme?).map excess).sum := by
  induction pieces with
  | nil => rfl
  | cons piece rest ih =>
      simp only [List.flatMap_cons, excess_append, ih]
      cases piece with
      | plain c =>
          simp only [Piece.commented, Piece.text, Piece.lexeme?, List.filterMap_cons]
          omega
      | hit found lexeme =>
          simp only [Piece.commented, Piece.text, Piece.lexeme?, List.filterMap_cons,
            List.map_cons, List.sum_cons, excess_of_noBrace plain]
          omega

/-- Where hits have no excess, every beginning of the text with comments has the excess of some
beginning of the text before, by induction on the pieces.
-/
theorem exists_prefix_of_commented (plain : ∀ c ∈ comment, NoBrace c)
    (pieces : List (Piece α)) (neutral : ∀ lexeme ∈ pieces.filterMap Piece.lexeme?,
      excess lexeme = 0)
    {start : List Char} (begins : start <+: pieces.flatMap (Piece.commented comment))
    : ∃ before, before <+: pieces.flatMap Piece.text ∧ excess before = excess start := by
  induction pieces generalizing start with
  | nil => exact ⟨start, begins, rfl⟩
  | cons piece rest ih =>
      rw [List.flatMap_cons] at begins
      have later : ∀ lexeme ∈ rest.filterMap Piece.lexeme?, excess lexeme = 0 := by
        intro lexeme member
        obtain ⟨other, within, same⟩ := List.mem_filterMap.mp member
        exact neutral lexeme
          (List.mem_filterMap.mpr ⟨other, List.mem_cons_of_mem _ within, same⟩)
      have same : excess (piece.commented comment) = excess piece.text := by
        cases piece with
        | plain c => rfl
        | hit found lexeme =>
            rw [Piece.commented, Piece.text, excess_of_noBrace plain]
            exact (neutral lexeme (List.mem_filterMap.mpr ⟨_, List.mem_cons_self, rfl⟩)).symm
      rcases beginning_of_append begins with inside | ⟨beyond, continues, rfl⟩
      · cases piece with
        | plain c => exact ⟨start, inside.trans (List.prefix_append _ _), rfl⟩
        | hit found lexeme =>
            exact ⟨[], List.nil_prefix, (excess_of_prefix_noBrace inside plain).symm⟩
      · obtain ⟨before, within, kept⟩ := ih later continues
        refine ⟨piece.text ++ before, (List.prefix_append_right_inj _).mpr within, ?_⟩
        rw [excess_append, excess_append, kept, same]

/-- The excess that is left when the hits of an idiom are replaced. -/
theorem Idiom.excess_replace (idiom : Idiom α) (plain : ∀ c ∈ comment, NoBrace c)
    (s : List Char)
    : excess (idiom.replace (fun _ => comment) s)
      = excess s - ((idiom.lexemes s).map excess).sum := by
  rw [replace_eq_commented, excess_commented plain, pieces_text, lexemes]

/-- Balance is kept where every hit has as many opening as closing braces. -/
theorem Idiom.balanced_replace (idiom : Idiom α) (plain : ∀ c ∈ comment, NoBrace c)
    {s : List Char} (neutral : ∀ lexeme ∈ idiom.lexemes s, excess lexeme = 0)
    (balanced : Balanced s)
    : Balanced (idiom.replace (fun _ => comment) s) := by
  have begun : ∀ start, start <+: idiom.replace (fun _ => comment) s → 0 ≤ excess start := by
    intro start begins
    rw [replace_eq_commented] at begins
    obtain ⟨before, within, same⟩ := exists_prefix_of_commented plain _ neutral begins
    rw [pieces_text] at within
    exact same ▸ balanced.2 before within
  have nothing : ((idiom.lexemes s).map excess).sum = 0 :=
    List.sum_eq_zero (List.forall_mem_map.mpr neutral)
  refine ⟨?_, begun⟩
  rw [excess_replace idiom plain, nothing, balanced.1]
  rfl

end RangeTuner.Text
