import RangeTuner.Proofs.Rewrite.ByteTypes

/-! What narrowing coordinate types does to the tokens of a text. Three passes, each over the text
that the one before left, make one substitution: definitions get a narrower type, captured names
their narrowed form wherever they stand, and declarations of coordinates a narrower type. Main
statement: these are the tokens of the rewrite, and the blanks between them are those of the text
except inside narrowed definitions.
-/

namespace RangeTuner.Rewrite

open RangeTuner.Text TypeKind

variable {kind : TypeKind} {name gap : List Char} {names : List (List Char)}
  {t : SpacedToken} {ts : List SpacedToken}

-----------------------------------------------------------------------------------------
-- Renamed words
-----------------------------------------------------------------------------------------

/-- No keyword is renamed, and no name becomes one. -/
theorem narrowedToken_eq_keyword_iff (known : ∀ name ∈ names, kind.Alias name) {word : String}
    (member : word ∈ keywords) {token : List Char}
    : narrowedToken names token = word.toList ↔ token = word.toList := by
  unfold narrowedToken
  split
  · next captured =>
      have narrow := known token captured
      exact iff_of_false (narrow.optimized.ne_keyword member) (narrow.ne_keyword member)
  · exact Iff.rfl

theorem narrowedToken_optimizedAlias (names : List (List Char)) (name : List Char)
    : narrowedToken names (optimizedAlias name) = optimizedAlias name := by
  unfold narrowedToken
  split
  · exact optimizedAlias_again name
  · rfl

/-- What is read of a definition, with the blanks between its words. -/
theorem TypeKind.spacing_of_scan {lexeme rest : List Char}
    (scanned : kind.scan (lexeme ++ rest) = some (name, rest))
    : ∃ lead : List SpacedToken, kind.Defines name (lead.map SpacedToken.token ++ [[';']])
      ∧ ∀ t, spacing (lexeme ++ t)
        = ⟨[], lead ++ ⟨[';'], (spacing t).lead⟩ :: (spacing t).spaced⟩ := by
  obtain ⟨read, whole, first, last, -, defines⟩ := scan_eq_some scanned
  obtain rfl := List.append_cancel_right whole
  obtain ⟨start, rfl⟩ := List.getLast?_eq_some_iff.mp last
  obtain ⟨words, same, -⟩ := defines.exists_eq_concat
  have visible : (start ++ [';']).head?.any isBlank = false := by
    rw [first]
    decide
  obtain ⟨lead, rfl, cut⟩ := spacing_statement (by decide : isWord ';' = false)
    (by decide : isBlank ';' = false) words visible same
  refine ⟨lead, same ▸ defines, fun t => ?_⟩
  rw [List.append_assoc, List.singleton_append, cut t]

namespace NarrowCoordinates

-----------------------------------------------------------------------------------------
-- The substitution
-----------------------------------------------------------------------------------------

/-- The word of the type that is narrowed. -/
def doubleWord : List Char :=
  "double".toList

/-- The definition of a coordinate type that spaced tokens start with: its name, and the blanks
behind it.
-/
def definition? : List SpacedToken → Option (List Char × List Char)
  | start :: type :: name :: close :: _ =>
      if start.token = opener ∧ type.token = doubleWord ∧ coordinates.named name.token = true
          ∧ close.token = [';'] then
        some (name.token, close.gap)
      else none
  | _ => none

/-- Spaced tokens with the definitions of coordinate types narrowed, and with another token
elsewhere, which may depend on what follows; a number of them, the rest of a definition, are left
out first.
-/
def narrowedFrom (elsewhere : List Char → List SpacedToken → List Char)
    : Nat → List SpacedToken → List SpacedToken
  | _, [] => []
  | skipped + 1, _ :: ts => narrowedFrom elsewhere skipped ts
  | 0, t :: ts =>
      match definition? (t :: ts) with
      | some (name, gap) =>
          ⟨opener, [' ']⟩ :: ⟨floatWord, [' ']⟩ :: ⟨optimizedAlias name, []⟩ :: ⟨[';'], gap⟩
            :: narrowedFrom elsewhere 3 ts
      | none => ⟨elsewhere t.token ts, t.gap⟩ :: narrowedFrom elsewhere 0 ts

/-- The token is the type of a coordinate that the next one names. -/
def Declares (token : List Char) (behind : List SpacedToken) : Prop :=
  token = doubleWord ∧ (behind.head?.map SpacedToken.token).any namesAxis = true

instance (token : List Char) (behind : List SpacedToken) : Decidable (Declares token behind) :=
  inferInstanceAs (Decidable (_ ∧ _))

/-- Spaced tokens with coordinate types narrowed, and with certain names in their narrowed form. -/
def narrowed (names : List (List Char)) (ts : List SpacedToken) : List SpacedToken :=
  narrowedFrom (fun token behind =>
    if Declares token behind then floatWord else narrowedToken names token) 0 ts

/-- Spaced tokens with the declarations of coordinates narrowed. -/
def declared : List SpacedToken → List SpacedToken
  | [] => []
  | t :: ts => ⟨if Declares t.token ts then floatWord else t.token, t.gap⟩ :: declared ts

theorem definition?_eq_some (found : definition? ts = some (name, gap))
    : ∃ gap₁ gap₂ gap₃ more, coordinates.named name = true
      ∧ ts = ⟨opener, gap₁⟩ :: ⟨doubleWord, gap₂⟩ :: ⟨name, gap₃⟩ :: ⟨[';'], gap⟩ :: more := by
  unfold definition? at found
  split at found
  · next start type name close more =>
      split at found
      · next fits =>
          obtain ⟨rfl, rfl⟩ := Prod.mk.inj (Option.some.inj found)
          obtain ⟨started, typed, named, closed⟩ := fits
          refine ⟨start.gap, type.gap, name.gap, more, named, ?_⟩
          rw [← started, ← typed, ← closed]
      · cases found
  · cases found

theorem narrowedFrom_definition (elsewhere : List Char → List SpacedToken → List Char)
    (named : coordinates.named name = true) (gap₁ gap₂ gap₃ gap : List Char)
    : narrowedFrom elsewhere 0
        (⟨opener, gap₁⟩ :: ⟨doubleWord, gap₂⟩ :: ⟨name, gap₃⟩ :: ⟨[';'], gap⟩ :: ts)
      = ⟨opener, [' ']⟩ :: ⟨floatWord, [' ']⟩ :: ⟨optimizedAlias name, []⟩ :: ⟨[';'], gap⟩
        :: narrowedFrom elsewhere 0 ts := by
  simp [narrowedFrom, definition?, named]

-----------------------------------------------------------------------------------------
-- Definitions
-----------------------------------------------------------------------------------------

/-- Where spaced tokens start with a definition, it is read. -/
theorem scan_of_definition? {token s : List Char} (first : IsToken token s)
    (found : definition? (⟨token, (spacing s).lead⟩ :: (spacing s).spaced) = some (name, gap))
    : ∃ rest, coordinates.scan (token ++ s) = some (name, rest) := by
  obtain ⟨gap₁, gap₂, gap₃, more, named, shape⟩ := definition?_eq_some found
  have defines : coordinates.Defines name [opener, doubleWord, name, [';']] :=
    ⟨named, ["double"], by decide, rfl⟩
  have same : tokens (token ++ s)
      = [opener, doubleWord, name, [';']] ++ more.map SpacedToken.token := by
    rw [← tokens_spacing, spacing_token_append first, shape]
    rfl
  obtain ⟨rest, scanned, -⟩ := scan_of_tokens first.head_visible defines same
  exact ⟨rest, scanned⟩

/-- The words of what is read of a definition of coordinates. -/
theorem spacing_of_coordinates {lexeme rest : List Char}
    (scanned : coordinates.scan (lexeme ++ rest) = some (name, rest))
    : ∃ gap₁ gap₂ gap₃, ∀ t, spacing (lexeme ++ t)
      = ⟨[], ⟨opener, gap₁⟩ :: ⟨doubleWord, gap₂⟩ :: ⟨name, gap₃⟩ :: ⟨[';'], (spacing t).lead⟩
        :: (spacing t).spaced⟩ := by
  obtain ⟨lead, ⟨-, type, member, same⟩, cut⟩ := spacing_of_scan scanned
  obtain rfl : type = ["double"] := by
    rcases List.mem_append.mp member with bare | signed
    · obtain ⟨base, within, rfl⟩ := List.mem_map.mp bare
      exact congrArg (fun base => [base]) (List.mem_singleton.mp within)
    · cases signed
  have words : lead.map SpacedToken.token = [opener, doubleWord, name] :=
    List.append_cancel_right same
  obtain ⟨t₁, ts₁, rfl, started, words₁⟩ := List.map_eq_cons_iff.mp words
  obtain ⟨t₂, ts₂, rfl, typed, words₂⟩ := List.map_eq_cons_iff.mp words₁
  obtain ⟨t₃, ts₃, rfl, named, words₃⟩ := List.map_eq_cons_iff.mp words₂
  obtain rfl := List.map_eq_nil_iff.mp words₃
  refine ⟨t₁.gap, t₂.gap, t₃.gap, fun t => ?_⟩
  rw [cut t, ← started, ← typed, ← named]
  rfl

theorem spacing_narrowedTypedef_append (known : coordinates.Alias name) (s : List Char)
    : spacing (narrowedTypedef name ++ s)
      = ⟨[], ⟨opener, [' ']⟩ :: ⟨floatWord, [' ']⟩ :: ⟨optimizedAlias name, []⟩
        :: ⟨[';'], (spacing s).lead⟩ :: (spacing s).spaced⟩ := by
  have new := known.optimized
  have edge : (';' :: s).head?.any isWord = false := (by decide : isWord ';' = false)
  simp only [narrowedTypedef_eq, List.append_assoc, List.cons_append, List.nil_append]
  rw [spacing_word_space opener_ne_nil opener_letters,
    spacing_word_space floatWord_ne_nil floatWord_letters,
    spacing_word_append new.ne_nil new.letters edge,
    spacing_cons_of_sign (by decide) (by decide)]

/-- The first pass narrows definitions. -/
theorem spacing_replace_narrowedTypedef (text : List Char)
    : spacing (coordinates.idiom.replace narrowedTypedef text)
      = ⟨(spacing text).lead, narrowedFrom (fun token _ => token) 0 (spacing text).spaced⟩ := by
  have replaced := (wordBound coordinates).spacing_replace narrowedTypedef
    (fun ts us => us = narrowedFrom (fun token _ => token) 0 ts) ?_ rfl ?_ ?_ text
  · rw [← replaced.1, ← replaced.2]
  · intro name _ _ _
    rw [narrowedTypedef_eq]
    exact head?_word_append opener_ne_nil opener_letters _
  · rintro token s _ first nothing rfl
    have undefined : definition? (⟨token, (spacing s).lead⟩ :: (spacing s).spaced) = none := by
      refine Option.eq_none_iff_forall_ne_some.mpr ?_
      intro ⟨name, gap⟩ found
      obtain ⟨rest, scanned⟩ := scan_of_definition? first found
      rw [show coordinates.scan (token ++ s) = none from nothing] at scanned
      cases scanned
    rw [narrowedFrom, undefined]
  · intro name lexeme s t scanned edge lead behind
    have known := alias_of_scan scanned
    obtain ⟨gap₁, gap₂, gap₃, cut⟩ := spacing_of_coordinates scanned
    rw [cut s, spacing_narrowedTypedef_append known, narrowedFrom_definition _ known.named, lead,
      behind]

-----------------------------------------------------------------------------------------
-- Declarations
-----------------------------------------------------------------------------------------

/-- The last pass narrows declarations. -/
theorem spacing_replace_declarations (text : List Char)
    : spacing (coordinateDeclaration.replace narrowedDeclaration text)
      = ⟨(spacing text).lead, declared (spacing text).spaced⟩ := by
  have replaced := wordBound_coordinateDeclaration.spacing_replace narrowedDeclaration
    (fun ts us => us = declared ts) ?_ rfl ?_ ?_ text
  · rw [← replaced.1, ← replaced.2]
  · intro found _ _ _
    rw [narrowedDeclaration, List.append_assoc]
    exact head?_word_append floatWord_ne_nil floatWord_letters _
  · rintro token s _ first nothing rfl
    have undeclared : ¬ Declares token (spacing s).spaced := by
      rintro ⟨rfl, follows⟩
      obtain ⟨next, more, shape⟩ : ∃ next more, (spacing s).spaced = next :: more := by
        cases spaced : (spacing s).spaced with
        | nil => simp [spaced] at follows
        | cons next more => exact ⟨next, more, rfl⟩
      have named : namesAxis next.token = true := by simpa [shape] using follows
      have starts : declaration.Starts (tokens (doubleWord ++ s)) := by
        refine ⟨[next.token], ⟨next.token, named, rfl⟩, more.map SpacedToken.token, ?_⟩
        rw [← tokens_spacing, spacing_token_append first, shape]
        rfl
      obtain ⟨found, rest, scanned⟩ := scan_of_declaration first.head_visible starts
      rw [nothing] at scanned
      cases scanned
    simp only [declared, if_neg undeclared]
  · intro found lexeme s t scanned edge lead behind
    obtain ⟨whole, wide, blank, filled, letters, ended, named⟩ :=
      scan_coordinateDeclaration_iff.mp scanned
    obtain rfl := List.append_cancel_right whole
    have other : ¬ Declares found.2 (spacing s).spaced := by
      rintro ⟨same, -⟩
      rw [same] at named
      exact absurd named (by decide)
    simp only [narrowedDeclaration, List.append_assoc]
    rw [spacing_word_gap floatWord_ne_nil floatWord_letters wide blank,
      spacing_word_append filled letters (edge.trans ended),
      spacing_word_gap (by decide) double_letters wide blank,
      spacing_word_append filled letters ended, lead, behind]
    simp only [declared, if_neg other]
    rw [if_pos]
    exact ⟨rfl, named⟩

-----------------------------------------------------------------------------------------
-- The whole template
-----------------------------------------------------------------------------------------

theorem namesAxis_optimizedAlias (name : List Char)
    : namesAxis (optimizedAlias name) = namesAxis name := by
  unfold optimizedAlias
  split
  · next rest found =>
      rw [after?_eq_some_iff.mp found]
      rfl
  · rfl

theorem namesAxis_narrowedToken (names : List (List Char)) (token : List Char)
    : namesAxis (narrowedToken names token) = namesAxis token := by
  unfold narrowedToken
  split
  · exact namesAxis_optimizedAlias token
  · rfl

/-- Narrowed definitions start like definitions. -/
theorem head?_narrowedFrom (ts : List SpacedToken)
    : (narrowedFrom (fun token _ => token) 0 ts).head?.map SpacedToken.token
      = ts.head?.map SpacedToken.token := by
  cases ts with
  | nil => rfl
  | cons t ts =>
      cases found : definition? (t :: ts) with
      | none => simp only [narrowedFrom, found, List.head?_cons, Option.map_some]
      | some result =>
          obtain ⟨name, gap⟩ := result
          obtain ⟨gap₁, gap₂, gap₃, more, named, shape⟩ := definition?_eq_some found
          rw [shape, narrowedFrom_definition _ named]
          rfl

theorem declares_iff (known : ∀ name ∈ names, coordinates.Alias name) (token : List Char)
    (ts : List SpacedToken)
    : Declares (narrowedToken names token)
        ((narrowedFrom (fun token _ => token) 0 ts).map (.map (narrowedToken names)))
      ↔ Declares token ts := by
  refine and_congr (narrowedToken_eq_keyword_iff known (by decide : "double" ∈ keywords)) ?_
  rw [List.head?_map, ← head?_narrowedFrom ts]
  cases (narrowedFrom (fun token _ => token) 0 ts).head? with
  | none => exact Iff.rfl
  | some next => exact iff_of_eq (congrArg (· = true) (namesAxis_narrowedToken names next.token))

/-- The passes one after the other make one substitution, by induction on the tokens. -/
theorem declared_map_narrowedFrom (known : ∀ name ∈ names, coordinates.Alias name) (skipped : Nat)
    (ts : List SpacedToken)
    : declared ((narrowedFrom (fun token _ => token) skipped ts).map (.map (narrowedToken names)))
      = narrowedFrom (fun token behind =>
          if Declares token behind then floatWord else narrowedToken names token) skipped ts := by
  induction ts generalizing skipped with
  | nil => cases skipped <;> rfl
  | cons t ts ih =>
      cases skipped with
      | succ skipped => exact ih skipped
      | zero =>
          cases found : definition? (t :: ts) with
          | none =>
              simp only [narrowedFrom, found, List.map_cons, declared, ih, SpacedToken.map,
                declares_iff known]
          | some result =>
              obtain ⟨name, gap⟩ := result
              obtain ⟨gap₁, gap₂, gap₃, more, named, -⟩ := definition?_eq_some found
              have keyword : ∀ word ∈ keywords, narrowedToken names word.toList = word.toList :=
                fun word member => (narrowedToken_eq_keyword_iff known member).mpr rfl
              have opened : narrowedToken names opener = opener := keyword "typedef" (by decide)
              have typed : narrowedToken names floatWord = floatWord := keyword "float" (by decide)
              have closed : narrowedToken names [';'] = [';'] := keyword ";" (by decide)
              have other : optimizedAlias name ≠ doubleWord := by
                intro same
                rw [← named_optimizedAlias, same] at named
                exact absurd named (by decide)
              have quiet : ∀ token, token ≠ doubleWord → ∀ behind, ¬ Declares token behind :=
                fun token other behind declares => other declares.1
              simp only [narrowedFrom, found, List.map_cons, SpacedToken.map, opened, typed, closed,
                narrowedToken_optimizedAlias, declared, ih]
              rw [if_neg (quiet opener (by decide) _), if_neg (quiet floatWord (by decide) _),
                if_neg (quiet _ other _), if_neg (quiet [';'] (by decide) _)]

theorem spacing_rewrite (text : List Char)
    : spacing (rewrite text)
      = ⟨(spacing text).lead,
        narrowed (coordinates.definedNames (tokens text)) (spacing text).spaced⟩ := by
  have known : ∀ name ∈ coordinates.definedNames (tokens text), coordinates.Alias name := by
    intro name member
    rw [← findAll_eq_definedNames] at member
    exact alias_of_findAll member
  have passes : rewrite text = coordinateDeclaration.replace narrowedDeclaration
      (renameAliases (coordinates.definedNames (tokens text))
        (coordinates.idiom.replace narrowedTypedef text)) := by
    rw [← findAll_eq_definedNames, ← aliasTypedef_eq]
    rfl
  rw [passes, spacing_replace_declarations, spacing_renameAliases known,
    spacing_replace_narrowedTypedef]
  exact congrArg _ (declared_map_narrowedFrom known 0 _)

/-- Main statement: narrowing coordinate types is one substitution on the tokens of a text, and
moves no blank outside the definitions that it narrows.
-/
theorem rewrite_substitutes_tokens (text : List Char)
    : tokens (rewrite text)
        = (narrowed (coordinates.definedNames (tokens text)) (spacing text).spaced).map
          SpacedToken.token
      ∧ spacing (rewrite text)
        = ⟨(spacing text).lead,
          narrowed (coordinates.definedNames (tokens text)) (spacing text).spaced⟩ := by
  have whole := spacing_rewrite text
  refine ⟨?_, whole⟩
  rw [← tokens_spacing, whole]
  rfl

/-- A name that goes on behind an alias is another word, and stays. -/
example : rewrite "typedef double generic_latitude ;\ngeneric_latitude a; generic_latitude_b c;".toList
    = "typedef float optimized_latitude;\noptimized_latitude a; generic_latitude_b c;".toList := by
  decide +kernel

end NarrowCoordinates

end RangeTuner.Rewrite
