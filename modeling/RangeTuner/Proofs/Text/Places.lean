import RangeTuner.Proofs.Text.Hits
import RangeTuner.Proofs.Text.Quiet

/-! Places where an idiom can be read, whether or not a hit is cut there. A text without such a
place has no hit, and a place in a text that is put together lies in one of its parts. Main
statements: an idiom occurs exactly where it can be read, and a replacement that changes every
hit changes every text with hits.
-/

namespace RangeTuner.Text

variable {α : Type}

/-- Behind parts that end alike a word may start or not alike, by induction on the parts. -/
theorem admits_flatMap_congr {β : Type} {f g : β → List Char} {xs : List β}
    (alike : ∀ x ∈ xs, (f x).getLast?.map isWord = (g x).getLast?.map isWord)
    : Opening.wordStart.admits (xs.flatMap f).getLast?
      = Opening.wordStart.admits (xs.flatMap g).getLast? := by
  have same : (xs.flatMap f).getLast?.map isWord = (xs.flatMap g).getLast?.map isWord := by
    induction xs with
    | nil => rfl
    | cons x xs ih =>
        rw [List.forall_mem_cons] at alike
        simp only [List.flatMap_cons, List.getLast?_append, Option.map_or, alike.1, ih alike.2]
  have words : ∀ before : Option Char, before.any isWord = (before.map isWord).any id := by
    rintro (_ | c) <;> rfl
  simp only [Opening.admits, words, same]

/-- The idiom can be read at a place of `part`, which stands behind a character and goes on with
`rest`.
-/
def Idiom.StandsIn (idiom : Idiom α) (before : Option Char) (part rest : List Char) : Prop :=
  ∃ start place, part = start ++ place ∧ place ≠ []
    ∧ (idiom.read? (start.getLast?.or before) (place ++ rest)).isSome = true

namespace Idiom

variable {idiom : Idiom α} {before : Option Char} {s t rest : List Char}

-----------------------------------------------------------------------------------------
-- Places in the parts of a text
-----------------------------------------------------------------------------------------

theorem not_standsIn_nil : ¬ idiom.StandsIn before [] rest := by
  rintro ⟨start, place, whole, filled, -⟩
  exact filled (List.append_eq_nil_iff.mp whole.symm).2

/-- A place is the first of a text or a later one. -/
theorem standsIn_cons {c : Char}
    : idiom.StandsIn before (c :: s) rest
      ↔ (idiom.read? before (c :: (s ++ rest))).isSome = true
        ∨ idiom.StandsIn (some c) s rest := by
  constructor
  · rintro ⟨start, place, whole, filled, read⟩
    cases start with
    | nil =>
        obtain rfl : c :: s = place := whole
        exact .inl read
    | cons d start =>
        obtain ⟨rfl, rfl⟩ := List.cons.inj whole
        refine .inr ⟨start, place, rfl, filled, ?_⟩
        rwa [getLast?_cons_or] at read
  · rintro (read | ⟨start, place, rfl, filled, read⟩)
    · exact ⟨[], c :: s, rfl, by simp, read⟩
    · refine ⟨c :: start, place, rfl, filled, ?_⟩
      rwa [getLast?_cons_or]

/-- A place in two texts is one in the first or in the second, by induction on the first. -/
theorem standsIn_append
    : idiom.StandsIn before (s ++ t) rest
      ↔ idiom.StandsIn before s (t ++ rest)
        ∨ idiom.StandsIn (s.getLast?.or before) t rest := by
  induction s generalizing before with
  | nil => simp [not_standsIn_nil]
  | cons c s ih =>
      simp only [List.cons_append, standsIn_cons, ih, getLast?_cons_or, or_assoc,
        List.append_assoc]

/-- A place in a text of many parts is one in some part. -/
theorem standsIn_flatMap {β : Type} {f : β → List Char} {xs : List β}
    (stands : idiom.StandsIn before (xs.flatMap f) rest)
    : ∃ first x last, xs = first ++ x :: last
      ∧ idiom.StandsIn ((first.flatMap f).getLast?.or before) (f x) (last.flatMap f ++ rest) := by
  induction xs generalizing before with
  | nil => exact absurd stands not_standsIn_nil
  | cons x xs ih =>
      rw [List.flatMap_cons, standsIn_append] at stands
      rcases stands with here | later
      · exact ⟨[], x, xs, rfl, here⟩
      · obtain ⟨first, y, last, rfl, there⟩ := ih later
        refine ⟨x :: first, y, last, rfl, ?_⟩
        rw [List.flatMap_cons, List.getLast?_append, Option.or_assoc]
        exact there

/-- In a quiet text nothing can be read, by induction on it. -/
theorem Spares.not_standsIn {calm : List Char → Bool} (spares : idiom.Spares calm)
    (quiet : quietFrom calm before s = true)
    : ¬ idiom.StandsIn before s rest := by
  induction s generalizing before with
  | nil => exact not_standsIn_nil
  | cons c s ih =>
      simp only [quietFrom, Bool.and_eq_true, Bool.or_eq_true] at quiet
      rw [standsIn_cons, not_or]
      refine ⟨?_, ih quiet.2⟩
      rcases quiet.1 with inWord | still
      · simp [read?, spares.opening, Opening.admits, inWord]
      · have nothing : idiom.scan (c :: (s ++ rest)) = none := spares.scan (c :: s) rest still
        simp [read?, nothing]

/-- An idiom that never finds an empty text can be read where it may begin and its scanner finds
something.
-/
theorem isSome_read?_iff (filled : idiom.scan.Reads fun _ read => read ≠ [])
    : (idiom.read? before s).isSome = true
      ↔ idiom.opening.admits before = true
        ∧ ∃ found rest, idiom.scan s = some (found, rest) := by
  constructor
  · intro read
    obtain ⟨⟨found, length⟩, read⟩ := Option.isSome_iff_exists.mp read
    obtain ⟨rest, scanned, -⟩ := scan_of_read? read
    refine ⟨?_, found, rest, scanned⟩
    by_contra other
    simp [read?, other] at read
  · rintro ⟨admitted, found, rest, scanned⟩
    obtain ⟨lexeme, rfl, filled⟩ := filled _ _ _ scanned
    simp [read?, admitted, scanned, List.length_pos_of_ne_nil filled]

-----------------------------------------------------------------------------------------
-- Places and hits
-----------------------------------------------------------------------------------------

/-- What is read may begin where it does. -/
theorem admits_of_read? {result : α × Nat} (read : idiom.read? before s = some result)
    : idiom.opening.admits before = true := by
  unfold read? at read
  split at read
  · assumption
  · cases read

/-- Where nothing can be read, a text is cut into its characters, by induction on it. -/
theorem piecesFrom_of_not_standsIn (nowhere : ¬ idiom.StandsIn before s [])
    : idiom.piecesFrom 0 before s = s.map .plain := by
  induction s generalizing before with
  | nil => rfl
  | cons c s ih =>
      rw [standsIn_cons, not_or, List.append_nil] at nowhere
      have unread : idiom.read? before (c :: s) = none := by simpa using nowhere.1
      simp only [piecesFrom, unread, List.map_cons, ih nowhere.2]

/-- Pieces are characters, or go on with a hit behind some characters. -/
theorem characters_or_hit (pieces : List (Piece α))
    : (∃ s : List Char, pieces = s.map .plain)
      ∨ ∃ (s : List Char) (found : α) (lexeme : List Char) (last : List (Piece α)),
        pieces = s.map .plain ++ .hit found lexeme :: last := by
  induction pieces with
  | nil => exact .inl ⟨[], rfl⟩
  | cons piece pieces ih =>
      cases piece with
      | hit found lexeme => exact .inr ⟨[], found, lexeme, pieces, rfl⟩
      | plain c =>
          rcases ih with ⟨s, rfl⟩ | ⟨s, found, lexeme, last, rfl⟩
          · exact .inl ⟨c :: s, rfl⟩
          · exact .inr ⟨c :: s, found, lexeme, last, rfl⟩

/-- Pieces without a hit are the characters of their text. -/
theorem eq_map_plain {pieces : List (Piece α)}
    (plain : pieces.filterMap Piece.found? = [])
    : pieces = (pieces.flatMap Piece.text).map .plain := by
  induction pieces with
  | nil => rfl
  | cons piece pieces ih =>
      cases piece with
      | plain c =>
          simp only [List.filterMap_cons, Piece.found?] at plain
          simp only [List.flatMap_cons, Piece.text, List.singleton_append, List.map_cons,
            ← ih plain]
      | hit found lexeme => simp [Piece.found?] at plain

/-- An idiom occurs in a text exactly where it can be read at some place. -/
theorem occursIn_iff_standsIn
    : idiom.occursIn s = true ↔ idiom.StandsIn none s [] := by
  constructor
  · intro occurs
    by_contra nowhere
    have cut := piecesFrom_of_not_standsIn nowhere
    simp [occursIn, findAll, pieces, cut, List.filterMap_map, Piece.found?] at occurs
  · intro stands
    by_contra absent
    have plain : (idiom.pieces s).filterMap Piece.found? = [] := by
      simpa [occursIn, findAll] using absent
    obtain ⟨start, place, whole, filled, read⟩ := stands
    obtain ⟨c, place, rfl⟩ := List.exists_cons_of_ne_nil filled
    have cut : idiom.piecesFrom 0 none s
        = start.map .plain ++ .plain c :: place.map .plain := by
      rw [← pieces, eq_map_plain plain, pieces_text, whole, List.map_append, List.map_cons]
    have unread := read?_of_split cut
    simp only [List.flatMap_map, Piece.text, List.flatMap_singleton', List.take_zero,
      List.nil_append] at unread
    rw [List.append_nil, unread] at read
    cases read

/-- Replacing changes nothing where the idiom does not occur. -/
theorem replace_of_not_occursIn (absent : idiom.occursIn s = false) (new : α → List Char)
    : idiom.replace new s = s := by
  have plain : (idiom.pieces s).filterMap Piece.found? = [] := by
    simpa [occursIn, findAll] using absent
  rw [replace_eq_replaced, eq_map_plain plain, pieces_text, List.flatMap_map]
  exact List.flatMap_singleton' s

/-- Replacing changes a text with hits, if whatever stands for a hit begins another way. -/
theorem not_occursIn_of_replace {new : α → List Char}
    (differ : ∀ found lexeme, .hit found lexeme ∈ idiom.pieces s
      → ∀ more other, new found ++ more ≠ lexeme ++ other)
    (same : idiom.replace new s = s)
    : idiom.occursIn s = false := by
  have alike : (idiom.pieces s).flatMap (Piece.replaced new)
      = (idiom.pieces s).flatMap Piece.text := by
    rw [← replace_eq_replaced, pieces_text, same]
  have plain : (idiom.pieces s).filterMap Piece.found? = [] := by
    revert differ alike
    induction idiom.pieces s with
    | nil => exact fun _ _ => rfl
    | cons piece pieces ih =>
        intro differ alike
        simp only [List.flatMap_cons] at alike
        cases piece with
        | plain c =>
            rw [List.filterMap_cons]
            exact ih (fun found lexeme member => differ found lexeme (.tail _ member))
              (List.cons.inj alike).2
        | hit found lexeme => exact absurd alike (differ found lexeme (.head _) _ _)
  simpa [occursIn, findAll] using plain

end Idiom

end RangeTuner.Text
