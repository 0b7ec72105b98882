import RangeTuner.Proofs.Rewrite.StoragePasses

/-! Which words renaming merges. Both templates that rename aliases compute the new name from the
alias alone, so a word that is already there may be the same. Main statement: each word of a text is
renamed by one function, and it merges two words only where one is a captured name and the other
its narrowed form. A text with such a pair shows that it does.
-/

namespace RangeTuner.Rewrite

open RangeTuner.Text RangeTuner.Spec TypeKind

variable {names : List (List Char)} {ts : List SpacedToken}

-----------------------------------------------------------------------------------------
-- Renamed words
-----------------------------------------------------------------------------------------

/-- One of the words is among the names, and the other is its narrowed form. -/
def Merges (names : List (List Char)) (w w' : List Char) : Prop :=
  w ∈ names ∧ w' = optimizedAlias w ∨ w' ∈ names ∧ w = optimizedAlias w'

/-- Two aliases with one narrowed form are the same, or one of them is that form. -/
theorem eq_or_of_optimizedAlias_eq {w w' : List Char} (same : optimizedAlias w = optimizedAlias w')
    : w = w' ∨ w' = optimizedAlias w ∨ w = optimizedAlias w' := by
  cases generic : after? "generic_".toList w with
  | none =>
      rw [optimizedAlias_of_not_generic generic] at same
      exact .inr (.inr same)
  | some rest =>
      cases generic' : after? "generic_".toList w' with
      | none =>
          rw [optimizedAlias_of_not_generic generic'] at same
          exact .inr (.inl same.symm)
      | some rest' =>
          simp only [optimizedAlias, generic, generic'] at same
          rw [after?_eq_some_iff.mp generic, after?_eq_some_iff.mp generic',
            List.append_cancel_left same]
          exact .inl rfl

/-- Two different words are renamed to one exactly where one is the captured name of the other. -/
theorem narrowedToken_eq_iff {w w' : List Char} (different : w ≠ w')
    : narrowedToken names w = narrowedToken names w' ↔ Merges names w w' := by
  constructor
  · intro same
    by_cases captured : w ∈ names
    · by_cases captured' : w' ∈ names
      · simp only [narrowedToken, captured, captured', if_true] at same
        rcases eq_or_of_optimizedAlias_eq same with equal | left | right
        · exact absurd equal different
        · exact .inl ⟨captured, left⟩
        · exact .inr ⟨captured', right⟩
      · simp only [narrowedToken, captured, captured', if_true, if_false] at same
        exact .inl ⟨captured, same.symm⟩
    · by_cases captured' : w' ∈ names
      · simp only [narrowedToken, captured, captured', if_true, if_false] at same
        exact .inr ⟨captured', same⟩
      · simp only [narrowedToken, captured, captured', if_false] at same
        exact absurd same different
  · have form : ∀ {w : List Char}, w ∈ names → narrowedToken names w = optimizedAlias w :=
      fun captured => if_pos captured
    rintro (⟨captured, rfl⟩ | ⟨captured, rfl⟩)
    · rw [form captured, narrowedToken_optimizedAlias]
    · rw [form captured, narrowedToken_optimizedAlias]

namespace NarrowCoordinates

/-- What stands in the place of a word: its new name, or `float` where it was `double`. -/
def Replaced (names : List (List Char)) (w new : List Char) : Prop :=
  new = narrowedToken names w ∨ w = doubleWord ∧ new = floatWord

/-- The name of a definition that spaced tokens start with is a defined name of them. -/
theorem mem_definedNames_of_definition? {t : SpacedToken} {name gap : List Char}
    (found : definition? (t :: ts) = some (name, gap))
    : name ∈ coordinates.definedNames ((t :: ts).map SpacedToken.token) := by
  obtain ⟨gap₁, gap₂, gap₃, more, named, shape⟩ := definition?_eq_some found
  have defines : coordinates.Defines name [opener, doubleWord, name, [';']] :=
    ⟨named, ["double"], by decide, rfl⟩
  have tokens : (t :: ts).map SpacedToken.token
      = [opener, doubleWord, name, [';']] ++ more.map SpacedToken.token := by
    rw [shape]
    rfl
  rw [tokens, defines.definedNames_append]
  exact List.mem_cons_self

/-- Each token has one in its place, by induction on the tokens. -/
theorem forall₂_narrowedFrom {elsewhere : List Char → List SpacedToken → List Char}
    (replaced : ∀ token behind, Replaced names token (elsewhere token behind)) (skipped : Nat)
    (captured : coordinates.definedNames (ts.map SpacedToken.token) ⊆ names)
    : List.Forall₂ (Replaced names) ((ts.drop skipped).map SpacedToken.token)
      ((narrowedFrom elsewhere skipped ts).map SpacedToken.token) := by
  induction ts generalizing skipped with
  | nil => cases skipped <;> exact .nil
  | cons t ts ih =>
      have behind : coordinates.definedNames (ts.map SpacedToken.token) ⊆ names :=
        fun _ member => captured (CompressStorage.definedNames_cons_subset _ _ _ member)
      cases skipped with
      | succ skipped => exact ih skipped behind
      | zero =>
          cases found : definition? (t :: ts) with
          | none =>
              simp only [narrowedFrom, found, List.drop_zero, List.map_cons]
              exact .cons (replaced t.token ts) (ih 0 behind)
          | some result =>
              obtain ⟨name, gap⟩ := result
              have within := captured (mem_definedNames_of_definition? found)
              obtain ⟨gap₁, gap₂, gap₃, more, -, shape⟩ := definition?_eq_some found
              have rest := ih 3 behind
              simp only [narrowedFrom, found, List.drop_zero]
              obtain ⟨rfl, rfl⟩ := List.cons.inj shape
              have kept : ∀ token : List Char, token.head? ≠ some 'g'
                  → Replaced names token token :=
                fun token other => .inl (CompressStorage.narrowedToken_of_head other).symm
              have opened : Replaced names opener opener := kept opener (by decide)
              have closed : Replaced names [';'] [';'] := kept [';'] (by decide)
              have renamed : Replaced names name (optimizedAlias name) := .inl (if_pos within).symm
              exact .cons opened (.cons (.inr ⟨rfl, rfl⟩) (.cons renamed (.cons closed rest)))

theorem forall₂_rewrite (text : List Char)
    : List.Forall₂ (Replaced (aliasTypedef.findAll text)) (tokens text) (tokens (rewrite text)) := by
  rw [aliasTypedef_eq, findAll_eq_definedNames]
  have whole : tokens (rewrite text)
      = (narrowed (coordinates.definedNames (tokens text)) (spacing text).spaced).map
        SpacedToken.token := by
    rw [← tokens_spacing, spacing_rewrite]
    rfl
  rw [whole]
  generalize captured : coordinates.definedNames (tokens text) = names
  rw [← tokens_spacing] at captured ⊢
  refine forall₂_narrowedFrom (fun token behind => ?_) 0 (captured ▸ List.Subset.refl _)
  by_cases declares : Declares token behind
  · exact .inr ⟨declares.1, if_pos declares⟩
  · exact .inl (if_neg declares)

end NarrowCoordinates

-----------------------------------------------------------------------------------------
-- Merged words
-----------------------------------------------------------------------------------------

/-- Main statement: in the rewrites of the two templates the words of a text stand one for one,
outside narrowed definitions and repaired directives, each under the name that one function gives
it; and that function merges two words exactly where one is a captured name and the other its
narrowed form.
-/
theorem renaming_merges_captured_names_only
    : (∀ text, List.Forall₂
          (fun w new => new = narrowedToken (NarrowCoordinates.aliasTypedef.findAll text) w
            ∨ w = "double".toList ∧ new = "float".toList)
          (tokens text) (tokens (NarrowCoordinates.rewrite text)))
      ∧ (∀ settings facts text, CompressStorage.Follows
          (CompressStorage.capturedNames settings facts text) (spacing text).spaced
          (spacing (CompressStorage.rewrite settings facts text)).spaced)
      ∧ ∀ names w w', w ≠ w'
          → (narrowedToken names w = narrowedToken names w' ↔ Merges names w w') :=
  ⟨NarrowCoordinates.forall₂_rewrite, CompressStorage.follows_rewrite,
    fun _ _ _ different => narrowedToken_eq_iff different⟩

/-- A captured alias beside a variable that has its narrowed form as name. -/
def capturedText : List Char :=
  "typedef double generic_latitude; int optimized_latitude;".toList

/-- Two different words of a text may get one name. -/
theorem renaming_merges_words
    : ¬ ∀ (text : List Char) (i j : Nat) (w w' : List Char), (tokens text)[i]? = some w
        → (tokens text)[j]? = some w' → w ≠ w' → w ≠ "double".toList → w' ≠ "double".toList
        → (tokens (NarrowCoordinates.rewrite text))[i]?
          ≠ (tokens (NarrowCoordinates.rewrite text))[j]? := by
  intro apart
  refine apart capturedText 2 5 "generic_latitude".toList "optimized_latitude".toList ?_ ?_ ?_ ?_ ?_
    ?_
  all_goals decide +kernel

end RangeTuner.Rewrite
