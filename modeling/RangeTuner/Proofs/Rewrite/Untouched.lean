import RangeTuner.Proofs.Text.Hits
import RangeTuner.Proofs.Text.Quiet
import RangeTuner.Proofs.Text.Scanning
import RangeTuner.Rewrite.Engine

/-! Beginnings that no template touches. All templates but the one for zone constants start their
hits with one of a few words. Where none of these stands at the start of a word, or only as a type
in the phrase that explanations use, the templates leave the text and work on what follows as they
would without it.
-/

namespace RangeTuner.Rewrite

open RangeTuner.Text RangeTuner.Spec

-----------------------------------------------------------------------------------------
-- Calm places
-----------------------------------------------------------------------------------------

/-- The text differs from the word before either of them ends. -/
def clashes : List Char → List Char → Bool
  | a :: word, c :: s => a ≠ c || clashes word s
  | _, _ => false

/-- The words that hits start with, but for types. -/
def openingWords : List String :=
  ["typedef", "if", "printf", "generic_"]

/-- The types that hits start with. -/
def openingTypes : List String :=
  ["double", "float"]

/-- No hit starts here, whatever follows. -/
def calm (s : List Char) : Bool :=
  (openingWords.all fun word => clashes word.toList s)
    && openingTypes.all fun type =>
      clashes type.toList s || (after? (type ++ " precision ").toList s).isSome

theorem clashes_append {word s : List Char} (clash : clashes word s = true) (t : List Char)
    : clashes word (s ++ t) = true := by
  fun_induction clashes word s with
  | case1 a word c s ih =>
      simp only [List.cons_append, clashes, Bool.or_eq_true] at clash ⊢
      exact clash.imp_right ih
  | case2 word s => cases clash

/-- A text that clashes with a word does not start with it. -/
theorem after?_of_clashes {word s : List Char} (clash : clashes word s = true)
    : after? word s = none := by
  fun_induction clashes word s with
  | case1 a word c s ih =>
      by_cases same : a = c
      · simpa [after?, same] using ih (by simpa [same] using clash)
      · simp [after?, same]
  | case2 word s => cases clash

theorem calm_lasting : Lasting calm := by
  intro s t still
  simp only [calm, Bool.and_eq_true, List.all_eq_true, Bool.or_eq_true,
    Option.isSome_iff_exists] at still ⊢
  refine ⟨fun word member => clashes_append (still.1 word member) t, fun type member => ?_⟩
  refine (still.2 type member).imp (clashes_append · t) fun ⟨rest, started⟩ => ?_
  exact ⟨rest ++ t, after?_append started t⟩

/-- At a calm place no opening word stands. -/
theorem literal_of_calm {s : List Char} (still : calm s = true) {word : String}
    (member : word ∈ openingWords)
    : Scanner.literal word s = none := by
  simp only [calm, Bool.and_eq_true, List.all_eq_true] at still
  simp [Scanner.literal, after?_of_clashes (still.1 word member)]

/-- At a calm place no type stands, or it stands in the phrase. -/
theorem literal_type_of_calm {s : List Char} (still : calm s = true) {type : String}
    (member : type ∈ openingTypes)
    : Scanner.literal type s = none ∨ ∃ rest, s = (type ++ " precision ").toList ++ rest := by
  simp only [calm, Bool.and_eq_true, List.all_eq_true, Bool.or_eq_true,
    Option.isSome_iff_exists] at still
  refine (still.2 type member).imp (fun clash => ?_) fun ⟨rest, started⟩ => ?_
  · simp [Scanner.literal, after?_of_clashes clash]
  · exact ⟨rest, after?_eq_some_iff.mp started⟩

end RangeTuner.Rewrite

namespace RangeTuner.Text.Scanner

variable {α β : Type}

/-- Nothing is found after a scanner that finds nothing. -/
theorem bind_eq_none {scan : Scanner α} {s : List Char} (nothing : scan s = none)
    (next : α → Scanner β)
    : (scan >>= next) s = none := by
  simp [bind, StateT.bind, nothing]

end RangeTuner.Text.Scanner

namespace RangeTuner.Rewrite

open RangeTuner.Text RangeTuner.Spec

-----------------------------------------------------------------------------------------
-- The idioms of the templates
-----------------------------------------------------------------------------------------

/-- An idiom whose hits start with an opening word finds nothing at calm places. -/
theorem spares_of_literal {α : Type} {word : String} (member : word ∈ openingWords)
    (next : Unit → Scanner α)
    : Idiom.Spares calm ⟨.wordStart, Scanner.literal word >>= next⟩ :=
  ⟨rfl, fun s t still =>
    Scanner.bind_eq_none (literal_of_calm (calm_lasting s t still) member) next⟩

theorem spares_aliasTypedef : NarrowCoordinates.aliasTypedef.Spares calm :=
  spares_of_literal (by decide) _

theorem spares_speedTypedef : CompressStorage.speedTypedef.Spares calm :=
  spares_of_literal (by decide) _

theorem spares_satellitesTypedef : CompressStorage.satellitesTypedef.Spares calm :=
  spares_of_literal (by decide) _

theorem spares_speedFormat : CompressStorage.speedFormat.Spares calm :=
  spares_of_literal (by decide) _

theorem spares_guard (condition : Scanner Unit) (words : List String)
    : (Guards.idiom condition words).Spares calm := by
  refine ⟨rfl, fun s t still => Scanner.bind_eq_none ?_ _⟩
  exact Scanner.bind_eq_none (literal_of_calm (calm_lasting s t still) (by decide)) _

theorem spares_coordinateDeclaration
    : NarrowCoordinates.coordinateDeclaration.Spares calm := by
  refine ⟨rfl, fun s t still => ?_⟩
  rcases literal_type_of_calm (calm_lasting s t still) (by decide : "double" ∈ openingTypes)
    with nothing | ⟨rest, same⟩
  · exact Scanner.bind_eq_none nothing _
  · rw [same]
    rfl

theorem spares_planarDistance : PlanarDistance.idiom.Spares calm := by
  refine ⟨rfl, fun s t still => ?_⟩
  have calmer := calm_lasting s t still
  have double := literal_type_of_calm calmer (by decide : "double" ∈ openingTypes)
  have float := literal_type_of_calm calmer (by decide : "float" ∈ openingTypes)
  rcases double with noDouble | ⟨rest, same⟩
  · rcases float with noFloat | ⟨rest, same⟩
    · refine Scanner.bind_eq_none ?_ _
      have none_of : PlanarDistance.returnType (s ++ t) = none := by
        simp [PlanarDistance.returnType, HOrElse.hOrElse, OrElse.orElse, Alternative.orElse,
          StateT.orElse, Scanner.bind_eq_none noDouble, Scanner.bind_eq_none noFloat]
      simp [Scanner.lexeme, PlanarDistance.head, Scanner.bind_eq_none none_of]
    · rw [same]
      rfl
  · rw [same]
    rfl

/-- Where a word is found, the text starts with it. -/
theorem scan_wholeWord {name t rest : List Char}
    (scanned : (wholeWord name).scan t = some ((), rest))
    : t = name ++ rest := by
  obtain ⟨word, middle, read, checked⟩ := Scanner.bind_eq_some_iff.mp scanned
  obtain ⟨rfl, rfl⟩ := Scanner.guard_eq_some_iff.mp checked
  obtain ⟨-, ran⟩ := Scanner.run1_eq_some_iff.mp read
  exact (Scanner.run_eq_some_iff.mp ran).1

/-- A word that starts like a generic name is not found at calm places. -/
theorem spares_wholeWord {name rest : List Char}
    (generic : after? "generic_".toList name = some rest)
    : (wholeWord name).Spares calm := by
  refine ⟨rfl, fun s t still => ?_⟩
  refine Option.eq_none_iff_forall_ne_some.mpr fun ⟨found, tail⟩ scanned => ?_
  have started := scan_wholeWord scanned
  rw [after?_eq_some_iff.mp generic, List.append_assoc] at started
  have absent := literal_of_calm (calm_lasting s t still) (by decide : "generic_" ∈ openingWords)
  rw [started, Scanner.literal_eq_some_iff.mpr rfl] at absent
  cases absent

-----------------------------------------------------------------------------------------
-- The templates
-----------------------------------------------------------------------------------------

/-- Renaming a word to itself changes nothing. -/
theorem rename_self (name text : List Char)
    : rename name name text = text := by
  have same : ∀ piece ∈ (wholeWord name).pieces text,
      Piece.replaced (fun _ => name) piece = piece.text := by
    intro piece member
    cases piece with
    | plain c => rfl
    | hit found lexeme =>
        exact Idiom.forall_hits
          (fun t found rest scanned => ⟨name, scan_wholeWord scanned, rfl⟩) member
  rw [rename, Idiom.replace_eq_replaced, List.flatMap_congr same, Idiom.pieces_text]

/-- Only generic names get a new form. -/
theorem optimizedAlias_of_not_generic {name : List Char}
    (plain : after? "generic_".toList name = none)
    : optimizedAlias name = name := by
  rw [optimizedAlias, plain]

section

variable {s : List Char} (quiet : Quiet calm s)
include quiet

theorem rename_append (name t : List Char)
    : rename name (optimizedAlias name) (s ++ t) = s ++ rename name (optimizedAlias name) t := by
  cases generic : after? "generic_".toList name with
  | none => simp only [optimizedAlias_of_not_generic generic, rename_self]
  | some rest => exact (spares_wholeWord generic).replace_append quiet _ t

theorem renameAliases_append (names : List (List Char)) (t : List Char)
    : renameAliases names (s ++ t) = s ++ renameAliases names t := by
  unfold renameAliases
  induction names generalizing t with
  | nil => rfl
  | cons name names ih => rw [List.foldl_cons, rename_append quiet, ih, List.foldl_cons]

theorem replaceAll_append {idioms : List (Idiom Unit)}
    (spared : ∀ idiom ∈ idioms, idiom.Spares calm) (comment t : List Char)
    : replaceAll idioms comment (s ++ t) = s ++ replaceAll idioms comment t := by
  unfold replaceAll
  induction idioms generalizing t with
  | nil => rfl
  | cons idiom idioms ih =>
      rw [List.forall_mem_cons] at spared
      rw [List.foldl_cons, spared.1.replace_append quiet, ih spared.2, List.foldl_cons]

theorem rangeGuards_append (t : List Char)
    : RangeGuards.rewrite (s ++ t) = s ++ RangeGuards.rewrite t := by
  refine replaceAll_append quiet ?_ _ t
  simp only [RangeGuards.idioms, List.forall_mem_cons, spares_guard, true_and, List.not_mem_nil,
    false_implies, implies_true]

theorem nullGuards_append (t : List Char)
    : NullGuards.rewrite (s ++ t) = s ++ NullGuards.rewrite t := by
  refine replaceAll_append quiet ?_ _ t
  simp only [NullGuards.idioms, List.forall_mem_cons, spares_guard, true_and, List.not_mem_nil,
    false_implies, implies_true]

theorem narrowCoordinates_append (t : List Char)
    : NarrowCoordinates.rewrite (s ++ t) = s ++ NarrowCoordinates.rewrite t := by
  simp only [NarrowCoordinates.rewrite, spares_aliasTypedef.findAll_append quiet,
    spares_aliasTypedef.replace_append quiet, renameAliases_append quiet,
    spares_coordinateDeclaration.replace_append quiet]

theorem narrow_append {typedef : Idiom (List Char)} (spared : typedef.Spares calm)
    (t : List Char)
    : CompressStorage.narrow typedef (s ++ t) = s ++ CompressStorage.narrow typedef t := by
  simp only [CompressStorage.narrow, spared.findAll_append quiet, spared.replace_append quiet,
    renameAliases_append quiet]

theorem narrowSpeeds_append (t : List Char)
    : CompressStorage.narrowSpeeds (s ++ t) = s ++ CompressStorage.narrowSpeeds t := by
  simp only [CompressStorage.narrowSpeeds, Idiom.occursIn,
    spares_speedTypedef.findAll_append quiet, narrow_append quiet spares_speedTypedef,
    spares_speedFormat.replace_append quiet]
  exact (apply_ite (s ++ ·) _ _ _).symm

theorem compressStorage_append (settings : Settings) (facts : Facts) (t : List Char)
    : CompressStorage.rewrite settings facts (s ++ t)
      = s ++ CompressStorage.rewrite settings facts t := by
  unfold CompressStorage.rewrite
  split <;> split <;>
    simp only [narrowSpeeds_append quiet, narrow_append quiet spares_satellitesTypedef]

/-- Main statement: a template other than the one for zone constants leaves a quiet beginning and
works on the rest as it would alone.
-/
theorem transform_append {settings : Settings} {facts : Facts} {optimization : Optimization}
    (other : optimization ≠ .zoneConstants) (t : List Char)
    : transform settings facts optimization (s ++ t)
      = s ++ transform settings facts optimization t := by
  unfold transform
  split
  · cases optimization with
    | narrowCoordinates => exact narrowCoordinates_append quiet t
    | removeRangeGuards => exact rangeGuards_append quiet t
    | planarDistance => exact spares_planarDistance.replace_append quiet _ t
    | removeNullGuards => exact nullGuards_append quiet t
    | compressStorage => exact compressStorage_append quiet settings facts t
    | zoneConstants => exact absurd rfl other
  · rfl

end

end RangeTuner.Rewrite
