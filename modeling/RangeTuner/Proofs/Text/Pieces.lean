import RangeTuner.Text.Idiom

/-! Pieces of a text that is put together from two. A hit that is read at the start of a text is its
first piece, and a beginning in which no hit starts is cut into its characters. Main statements:
how the pieces of both kinds of text begin, and how they go on.
-/

namespace RangeTuner.Text

-----------------------------------------------------------------------------------------
-- Parts of a text
-----------------------------------------------------------------------------------------

theorem after?_append {start s rest : List Char} (found : after? start s = some rest)
    (t : List Char)
    : after? start (s ++ t) = some (rest ++ t) := by
  rw [after?_eq_some_iff] at found ⊢
  rw [found, List.append_assoc]

/-- A text starts with what a longer one starts with, if it is long enough. -/
theorem after?_of_append {start s t rest : List Char} (long : start.length ≤ s.length)
    (found : after? start (s ++ t) = some rest)
    : ∃ tail, after? start s = some tail := by
  have whole := after?_eq_some_iff.mp found
  have fits : start <+: s :=
    List.prefix_of_prefix_length_le (whole ▸ List.prefix_append start rest)
      (List.prefix_append s t) long
  obtain ⟨tail, same⟩ := fits
  exact ⟨tail, after?_eq_some_iff.mpr same.symm⟩

/-- What occurs first in a text occurs first in every longer one, by induction on the text. -/
theorem splitAtFirst?_append {part s before rest : List Char}
    (found : splitAtFirst? part s = some (before, rest)) (t : List Char)
    : splitAtFirst? part (s ++ t) = some (before, rest ++ t) := by
  induction s generalizing before with
  | nil =>
      obtain ⟨tail, begun, same⟩ := Option.map_eq_some_iff.mp found
      obtain ⟨rfl, rfl⟩ := Prod.mk.inj same
      have begun' := after?_append begun t
      cases t with
      | nil => simpa [splitAtFirst?] using begun
      | cons d t => simp_all [splitAtFirst?]
  | cons c s ih =>
      simp only [splitAtFirst?] at found
      split at found
      · next tail begun =>
          obtain ⟨rfl, rfl⟩ := Prod.mk.inj (Option.some.inj found)
          have begun' := after?_append begun t
          simp only [List.cons_append] at begun' ⊢
          simp [splitAtFirst?, begun']
      · next later =>
          obtain ⟨⟨start, tail⟩, within, same⟩ := Option.map_eq_some_iff.mp found
          obtain ⟨rfl, rfl⟩ := Prod.mk.inj same
          have long : part.length ≤ (c :: s).length := by
            have whole := congrArg List.length (eq_append_of_splitAtFirst? within)
            simp only [List.length_append, List.length_cons] at whole ⊢
            omega
          have nowhere : after? part (c :: (s ++ t)) = none := by
            refine Option.eq_none_iff_forall_ne_some.mpr fun rest begun => ?_
            obtain ⟨tail, earlier⟩ := after?_of_append long begun
            rw [later] at earlier
            cases earlier
          simp [splitAtFirst?, nowhere, ih within]

/-- What stands between two parts lies in the first or in the second of two other ones. -/
theorem append_cons_eq_append_iff {β : Type} {s t a b : List β} {c : β}
    : s ++ c :: t = a ++ b
      ↔ (∃ x, a = s ++ c :: x ∧ t = x ++ b) ∨ ∃ x, s = a ++ x ∧ b = x ++ c :: t := by
  constructor
  · intro same
    rcases List.append_eq_append_iff.mp same with ⟨x, rfl, rest⟩ | ⟨x, rfl, rest⟩
    · rcases List.cons_eq_append_iff.mp rest with ⟨rfl, rfl⟩ | ⟨y, rfl, rfl⟩
      · exact .inr ⟨[], by simp⟩
      · exact .inl ⟨y, rfl, rfl⟩
    · exact .inr ⟨x, rfl, rest⟩
  · rintro (⟨x, rfl, rfl⟩ | ⟨x, rfl, rfl⟩) <;> simp

/-- What stands before the first of some character is determined. -/
theorem eq_of_append_cons_eq {first first' s t : List Char} {c : Char} (absent : c ∉ first)
    (absent' : c ∉ first') (same : first ++ c :: s = first' ++ c :: t)
    : first = first' := by
  have taken : ∀ {l r : List Char}, c ∉ l → (l ++ c :: r).takeWhile (· ≠ c) = l := by
    intro l r absent
    rw [List.takeWhile_append_of_pos fun d member => ?_]
    · simp
    · simpa using fun equal : d = c => absent (equal ▸ member)
  rw [← taken absent, same, taken absent']

/-- A part is found where it stands first, if a character of it stands nowhere before, by induction
on what is there.
-/
theorem splitAtFirst?_of_absent {start more content : List Char} {c : Char}
    (absent : c ∉ start) (absent' : c ∉ content) (t : List Char)
    : splitAtFirst? (start ++ c :: more) (content ++ (start ++ c :: more ++ t))
      = some (content, t) := by
  induction content with
  | nil =>
      obtain ⟨d, rest, filled⟩ : ∃ d rest, start ++ c :: more ++ t = d :: rest := by
        cases start <;> exact ⟨_, _, rfl⟩
      have here : after? (start ++ c :: more) (d :: rest) = some t :=
        after?_eq_some_iff.mpr filled.symm
      rw [List.nil_append, filled, splitAtFirst?, here]
  | cons d content ih =>
      have nowhere : after? (start ++ c :: more) (d :: (content ++ (start ++ c :: more ++ t)))
          = none := by
        refine Option.eq_none_iff_forall_ne_some.mpr fun rest found => ?_
        have same : (d :: content ++ start) ++ c :: (more ++ t) = start ++ c :: (more ++ rest) := by
          simpa using after?_eq_some_iff.mp found
        have equal := congrArg List.length
          (eq_of_append_cons_eq (List.not_mem_append absent' absent) absent same)
        rw [List.length_append, List.length_cons] at equal
        omega
      rw [List.cons_append, splitAtFirst?, nowhere, ih fun member =>
        absent' (List.mem_cons_of_mem _ member)]
      rfl

/-- What occurs in a text is a part of it, by induction on the text. -/
theorem occurs_iff_isInfix {part s : List Char}
    : occurs part s = true ↔ part <:+: s := by
  constructor
  · intro found
    obtain ⟨⟨before, rest⟩, split⟩ := Option.isSome_iff_exists.mp found
    rw [eq_append_of_splitAtFirst? split, ← List.append_assoc]
    exact ⟨before, rest, rfl⟩
  · intro within
    induction s with
    | nil =>
        rw [List.infix_nil.mp within]
        rfl
    | cons c s ih =>
        unfold occurs splitAtFirst?
        split
        · rfl
        · next nowhere =>
            rcases List.infix_cons_iff.mp within with start | later
            · obtain ⟨rest, same⟩ := start
              rw [after?_eq_some_iff.mpr same.symm] at nowhere
              cases nowhere
            · simpa [occurs] using ih later

/-- What occurs in a part of a text occurs in the text. -/
theorem occurs_of_infix {part s t : List Char} (found : occurs part s = true)
    (within : s <:+: t)
    : occurs part t = true :=
  occurs_iff_isInfix.mpr ((occurs_iff_isInfix.mp found).trans within)

-----------------------------------------------------------------------------------------
-- Pieces
-----------------------------------------------------------------------------------------

/-- What stands in the place of a piece when hits are replaced. -/
def Piece.replaced {α : Type} (new : α → List Char) : Piece α → List Char
  | .plain c => [c]
  | .hit found _ => new found

namespace Idiom

variable {α : Type} {idiom : Idiom α}

/-- Replacing hits works piece by piece. -/
theorem replace_eq_replaced (new : α → List Char) (s : List Char)
    : idiom.replace new s = (idiom.pieces s).flatMap (Piece.replaced new) := by
  unfold replace
  congr 1

/-- The character before a text matters only for whether the idiom may begin there. -/
theorem piecesFrom_congr {before other : Option Char}
    (same : idiom.opening.admits before = idiom.opening.admits other) (covered : Nat)
    (s : List Char)
    : idiom.piecesFrom covered before s = idiom.piecesFrom covered other s := by
  cases s with
  | nil => simp only [piecesFrom]
  | cons c s =>
      cases covered with
      | zero => simp only [piecesFrom, read?, same]
      | succ n => simp only [piecesFrom]

/-- Covered characters are passed over, by induction on them. -/
theorem piecesFrom_covered (covered : List Char) (before : Option Char) (rest : List Char)
    : idiom.piecesFrom covered.length before (covered ++ rest)
      = idiom.piecesFrom 0 (covered.getLast?.or before) rest := by
  induction covered generalizing before with
  | nil => rfl
  | cons c covered ih =>
      simp only [List.length_cons, List.cons_append, piecesFrom, ih, List.getLast?_cons]
      cases covered.getLast? <;> rfl

/-- What is read at the start of a text is its first piece. -/
theorem piecesFrom_of_scan {before : Option Char} {lexeme rest : List Char} {found : α}
    (admitted : idiom.opening.admits before = true) (filled : lexeme ≠ [])
    (scanned : idiom.scan (lexeme ++ rest) = some (found, rest))
    : idiom.piecesFrom 0 before (lexeme ++ rest)
      = .hit found lexeme :: idiom.piecesFrom 0 (lexeme.getLast?.or before) rest := by
  obtain ⟨c, lexeme, rfl⟩ := List.exists_cons_of_ne_nil filled
  have read : idiom.read? before (c :: (lexeme ++ rest)) = some (found, lexeme.length + 1) := by
    simp only [List.cons_append] at scanned
    simp only [read?, admitted, if_true, scanned, List.length_cons, List.length_append]
    rw [if_pos (by omega)]
    congr 2
    omega
  simp only [List.cons_append, piecesFrom, read, Nat.add_sub_cancel, List.take_succ_cons,
    List.take_left, piecesFrom_covered, List.getLast?_cons]
  cases lexeme.getLast? <;> rfl

/-- Where an idiom may begin anywhere, the pieces of a text that starts with a hit are the hit and
those of the rest.
-/
theorem pieces_append_of_scan (anywhere : idiom.opening = .anywhere) {lexeme rest : List Char}
    {found : α} (filled : lexeme ≠ []) (scanned : idiom.scan (lexeme ++ rest) = some (found, rest))
    : idiom.pieces (lexeme ++ rest) = .hit found lexeme :: idiom.pieces rest := by
  have admitted : ∀ before, idiom.opening.admits before = true := fun _ => by rw [anywhere]; rfl
  exact (piecesFrom_of_scan (admitted none) filled scanned).trans
    (congrArg _ (piecesFrom_congr ((admitted _).trans (admitted none).symm) 0 rest))

/-- Where an idiom may begin anywhere, the pieces of a text that starts with no hit are its first
character and those of the rest.
-/
theorem pieces_cons_of_scan (anywhere : idiom.opening = .anywhere) {c : Char} {s : List Char}
    (unread : idiom.scan (c :: s) = none)
    : idiom.pieces (c :: s) = .plain c :: idiom.pieces s := by
  have admitted : ∀ before, idiom.opening.admits before = true := fun _ => by rw [anywhere]; rfl
  have nothing : idiom.read? none (c :: s) = none := by simp [read?, unread]
  rw [pieces, piecesFrom, nothing]
  exact congrArg _ (piecesFrom_congr ((admitted _).trans (admitted none).symm) 0 s)

end Idiom

end RangeTuner.Text
