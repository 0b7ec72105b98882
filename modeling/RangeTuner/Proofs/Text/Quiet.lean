import RangeTuner.Proofs.Text.Pieces

/-! Beginnings in which no hit starts. Where an idiom must start at the start of a word, a text is
quiet for it if at no such place anything stands that the idiom could start with, whatever
follows. Whether a text is quiet can be computed, and told of a text from its parts. Main
statement: an idiom has the hits behind a quiet beginning that it has without it.
-/

namespace RangeTuner.Text

/-- At every place of a text where a word may start, what follows is calm. -/
def quietFrom (calm : List Char → Bool) (before : Option Char) : List Char → Bool
  | [] => true
  | c :: s => (before.any isWord || calm (c :: s)) && quietFrom calm (some c) s

/-- A text that is quiet on its own and after which a word may start. -/
structure Quiet (calm : List Char → Bool) (s : List Char) : Prop where
  within : quietFrom calm none s = true
  ends : s.getLast?.any isWord = false

variable {calm : List Char → Bool}

/-- What is calm stays calm whatever follows. -/
def Lasting (calm : List Char → Bool) : Prop :=
  ∀ s t, calm s = true → calm (s ++ t) = true

/-- The character before a text matters only for whether a word may start there. -/
theorem quietFrom_congr {before other : Option Char}
    (same : before.any isWord = other.any isWord) (s : List Char)
    : quietFrom calm before s = quietFrom calm other s := by
  cases s with
  | nil => rfl
  | cons c s => simp only [quietFrom, same]

/-- A text is quiet if its parts are, one after the other. -/
theorem quietFrom_append (lasting : Lasting calm) {before : Option Char} {s t : List Char}
    (first : quietFrom calm before s = true)
    (second : quietFrom calm (s.getLast?.or before) t = true)
    : quietFrom calm before (s ++ t) = true := by
  induction s generalizing before with
  | nil => simpa using second
  | cons c s ih =>
      simp only [quietFrom, Bool.and_eq_true, Bool.or_eq_true, List.cons_append] at first ⊢
      obtain ⟨here, later⟩ := first
      refine ⟨here.imp_right fun still => lasting (c :: s) t still, ih later ?_⟩
      cases s with
      | nil => simpa using second
      | cons d s => simpa [List.getLast?_cons] using second

theorem Quiet.nil : Quiet calm [] :=
  ⟨rfl, rfl⟩

/-- Quiet texts can be put together. -/
theorem Quiet.append (lasting : Lasting calm) {s t : List Char} (first : Quiet calm s)
    (second : Quiet calm t)
    : Quiet calm (s ++ t) := by
  refine ⟨quietFrom_append lasting first.within ?_, ?_⟩
  · rw [quietFrom_congr (by simpa using first.ends : _ = (none : Option Char).any isWord)]
    exact second.within
  · rw [List.getLast?_append]
    cases last : t.getLast? with
    | none => simpa using first.ends
    | some c => simpa [last] using second.ends

/-- Quiet texts can be put together, as many as there are. -/
theorem Quiet.flatMap (lasting : Lasting calm) {α : Type} {f : α → List Char} {xs : List α}
    (each : ∀ x ∈ xs, Quiet calm (f x))
    : Quiet calm (xs.flatMap f) := by
  induction xs with
  | nil => exact .nil
  | cons x xs ih =>
      rw [List.forall_mem_cons] at each
      exact each.1.append lasting (ih each.2)

/-- The idiom starts words, and finds nothing where the text is calm. -/
structure Idiom.Spares {α : Type} (calm : List Char → Bool) (idiom : Idiom α) : Prop where
  opening : idiom.opening = .wordStart
  scan : ∀ s t, calm s = true → idiom.scan (s ++ t) = none

namespace Idiom

variable {α : Type} {idiom : Idiom α}

/-- A quiet beginning is cut into its characters, by induction on it. -/
theorem Spares.piecesFrom_append (spares : idiom.Spares calm) {before : Option Char}
    {s : List Char} (quiet : quietFrom calm before s = true) (t : List Char)
    : idiom.piecesFrom 0 before (s ++ t)
      = s.map .plain ++ idiom.piecesFrom 0 (s.getLast?.or before) t := by
  induction s generalizing before with
  | nil => rfl
  | cons c s ih =>
      simp only [quietFrom, Bool.and_eq_true, Bool.or_eq_true] at quiet
      obtain ⟨here, later⟩ := quiet
      have unread : idiom.read? before (c :: (s ++ t)) = none := by
        rcases here with inWord | still
        · simp [read?, spares.opening, Opening.admits, inWord]
        · have nothing : idiom.scan (c :: (s ++ t)) = none := spares.scan (c :: s) t still
          simp [read?, nothing]
      simp only [List.cons_append, piecesFrom, unread, ih later, List.map_cons,
        List.getLast?_cons]
      cases s.getLast? <;> rfl

/-- The pieces of a text behind a quiet beginning are those of the text alone. -/
theorem Spares.pieces_append (spares : idiom.Spares calm) {s : List Char}
    (quiet : Quiet calm s) (t : List Char)
    : idiom.pieces (s ++ t) = s.map .plain ++ idiom.pieces t := by
  unfold pieces
  rw [spares.piecesFrom_append quiet.within]
  congr 1
  apply piecesFrom_congr
  simp [spares.opening, Opening.admits, quiet.ends]

/-- Replacing hits leaves a quiet beginning. -/
theorem Spares.replace_append (spares : idiom.Spares calm) {s : List Char}
    (quiet : Quiet calm s) (new : α → List Char) (t : List Char)
    : idiom.replace new (s ++ t) = s ++ idiom.replace new t := by
  have plain : (s.map Piece.plain).flatMap (Piece.replaced new) = s := by
    simp [List.flatMap_map, Piece.replaced]
  rw [replace_eq_replaced, replace_eq_replaced, spares.pieces_append quiet, List.flatMap_append,
    plain]

/-- Nothing is found in a quiet beginning. -/
theorem Spares.findAll_append (spares : idiom.Spares calm) {s : List Char}
    (quiet : Quiet calm s) (t : List Char)
    : idiom.findAll (s ++ t) = idiom.findAll t := by
  have none_found : (s.map (Piece.plain (α := α))).filterMap Piece.found? = [] := by
    simp [List.filterMap_map, Piece.found?]
  simp only [findAll, spares.pieces_append quiet, List.filterMap_append, none_found,
    List.nil_append]

end Idiom

end RangeTuner.Text
