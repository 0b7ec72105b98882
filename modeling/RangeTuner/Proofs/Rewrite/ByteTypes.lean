import RangeTuner.Proofs.Rewrite.NotedTypes

/-! What compressed storage does to the code of a text. Among its tokens, the type of each narrowed
definition becomes that of a single byte and its name gets its narrowed form wherever it stands.
Main statement: the cleaned rewrite of a text has these tokens and no others, where narrowed
definitions end their lines. Code behind a definition on its line is lost in the note.
-/

namespace RangeTuner.Rewrite

open RangeTuner.Text RangeTuner.Spec

attribute [local instance] lawfulBEq_token

namespace TypeKind

variable {kind : TypeKind} {name token : List Char} {ts us lead names : List (List Char)}

-----------------------------------------------------------------------------------------
-- Narrowed tokens
-----------------------------------------------------------------------------------------

/-- The names in the definitions of the kind that stand among tokens. -/
def definedNames (kind : TypeKind) : List (List Char) → List (List Char)
  | [] => []
  | token :: ts =>
      match kind.definition? (token :: ts) with
      | some (name, _) => name :: kind.definedNames ts
      | none => kind.definedNames ts

/-- Tokens with the type of each definition of the kind as a single byte; a number of them, the
words of a type, are left out first.
-/
def retyped (kind : TypeKind) : Nat → List (List Char) → List (List Char)
  | _, [] => []
  | skipped + 1, _ :: ts => kind.retyped skipped ts
  | 0, token :: ts =>
      match kind.definition? (token :: ts) with
      | some (_, rest) =>
          -- behind the type there are the name and a semicolon
          token :: "unsigned".toList :: "char".toList
            :: kind.retyped (ts.length - rest.length - 2) ts
      | none => token :: kind.retyped 0 ts

/-- A token, in its narrowed form if it is one of certain names. -/
def narrowedToken (names : List (List Char)) (token : List Char) : List Char :=
  if token ∈ names then optimizedAlias token else token

/-- Tokens with the definitions of the kind narrowed, and with the names in them in their narrowed
form wherever they stand.
-/
def narrowedTokens (kind : TypeKind) (ts : List (List Char)) : List (List Char) :=
  (kind.retyped 0 ts).map (narrowedToken (kind.definedNames ts))

theorem definition?_of_ne (other : token ≠ opener) (ts : List (List Char))
    : kind.definition? (token :: ts) = none := by
  simp [definition?, other]

/-- A definition has one opener. -/
theorem Defines.exists_eq_opener (defines : kind.Defines name lead)
    : ∃ type : List (List Char), lead = opener :: (type ++ [name, [';']])
      ∧ ∀ token ∈ type ++ [name, [';']], token ≠ opener := by
  obtain ⟨more, same, follows⟩ := defines.exists_eq_cons
  obtain ⟨-, type, -, shape⟩ := defines
  obtain ⟨-, rfl⟩ := List.cons.inj (same.symm.trans shape)
  refine ⟨type.map String.toList, shape, ?_⟩
  rintro token member rfl
  have inside : kind.inner opener = true := kind.definition.inside _ follows _ member
  rw [inner_opener] at inside
  cases inside

theorem definedNames_append (others : ∀ token ∈ us, token ≠ opener) (ts : List (List Char))
    : kind.definedNames (us ++ ts) = kind.definedNames ts := by
  induction us with
  | nil => rfl
  | cons token us ih =>
      rw [List.forall_mem_cons] at others
      rw [List.cons_append, definedNames, definition?_of_ne others.1]
      exact ih others.2

theorem retyped_append (others : ∀ token ∈ us, token ≠ opener) (ts : List (List Char))
    : kind.retyped 0 (us ++ ts) = us ++ kind.retyped 0 ts := by
  induction us with
  | nil => rfl
  | cons token us ih =>
      rw [List.forall_mem_cons] at others
      rw [List.cons_append, retyped, definition?_of_ne others.1]
      exact congrArg _ (ih others.2)

theorem retyped_length_append (us ts : List (List Char))
    : kind.retyped us.length (us ++ ts) = kind.retyped 0 ts := by
  induction us with
  | nil => rfl
  | cons token us ih => exact ih

theorem Defines.definedNames_append (defines : kind.Defines name lead) (ts : List (List Char))
    : kind.definedNames (lead ++ ts) = name :: kind.definedNames ts := by
  have read := defines.definition? ts
  obtain ⟨type, rfl, others⟩ := defines.exists_eq_opener
  rw [List.cons_append] at read ⊢
  rw [definedNames, read]
  exact congrArg _ (TypeKind.definedNames_append others ts)

theorem Defines.retyped_append (defines : kind.Defines name lead) (ts : List (List Char))
    : kind.retyped 0 (lead ++ ts)
      = opener :: "unsigned".toList :: "char".toList :: name :: [';'] :: kind.retyped 0 ts := by
  have read := defines.definition? ts
  obtain ⟨type, rfl, others⟩ := defines.exists_eq_opener
  rw [List.cons_append] at read ⊢
  have width : (type ++ [name, [';']] ++ ts).length - ts.length - 2 = type.length := by
    simp only [List.length_append, List.length_cons, List.length_nil]
    omega
  have behind : ∀ token ∈ [name, [';']], token ≠ opener :=
    fun token member => others token (List.mem_append_right _ member)
  rw [retyped, read]
  simp only [width]
  rw [List.append_assoc, retyped_length_append, TypeKind.retyped_append behind]
  rfl

-----------------------------------------------------------------------------------------
-- Tokens of a narrowed text
-----------------------------------------------------------------------------------------

/-- Where no definition is read at a word, none starts there. -/
theorem definition?_of_scan {word s : List Char} (filled : word ≠ [])
    (all : ∀ c ∈ word, isWord c = true) (ended : s.head?.any isWord = false)
    (nothing : kind.scan (word ++ s) = none)
    : kind.definition? (word :: tokens s) = none := by
  refine Option.eq_none_iff_forall_ne_some.mpr ?_
  intro ⟨name, rest⟩ found
  obtain ⟨lead, defines, same⟩ := defines_of_definition? found
  have first : IsToken word s := .word filled all ended
  rw [← tokens_word_append filled all ended] at same
  obtain ⟨tail, scanned, -⟩ := scan_of_tokens first.head_visible defines same
  rw [nothing] at scanned
  cases scanned

/-- What the idiom finds are the names in definitions among the tokens, by induction on the pieces
of the text.
-/
theorem findAll_eq_definedNames (kind : TypeKind) (text : List Char)
    : kind.idiom.findAll text = kind.definedNames (tokens text) := by
  rw [Idiom.findAll]
  induction text using (wordBound kind).pieces_induction with
  | nil => rfl
  | outside c s pieces outside ih =>
      have sign : ∀ token ∈ signToken c, token ≠ opener :=
        kind.definition.signToken_ne_first
      rw [tokens_cons outside, definedNames_append sign, ← ih]
      rfl
  | word word s pieces filled all ended nothing ih =>
      rw [tokens_word_append filled all ended, definedNames,
        definition?_of_scan filled all ended nothing, ← ih]
      simp [List.filterMap_map, Piece.found?]
  | hit found lexeme s pieces scanned first last ih =>
      rw [tokens_append last, (defines_of_scan scanned).definedNames_append, ← ih]
      rfl

theorem optimizedAlias_again (name : List Char)
    : optimizedAlias (optimizedAlias name) = optimizedAlias name := by
  cases generic : after? "generic_".toList name with
  | none => rw [optimizedAlias_of_not_generic generic, optimizedAlias_of_not_generic generic]
  | some rest =>
      have form : optimizedAlias name = "optimized_".toList ++ rest := by
        rw [optimizedAlias, generic]
      rw [form]
      exact optimizedAlias_of_not_generic rfl

theorem narrowedToken_nil (token : List Char) : narrowedToken [] token = token := by
  simp [narrowedToken]

/-- Renaming to one name and then to others is renaming to all of them. -/
theorem narrowedToken_renamedToken (name : List Char) (names : List (List Char)) (token : List Char)
    : narrowedToken names (renamedToken name (optimizedAlias name) token)
      = narrowedToken (name :: names) token := by
  by_cases same : token = name
  · simp [narrowedToken, renamedToken, same, optimizedAlias_again]
  · simp [narrowedToken, renamedToken, same]

/-- Renaming one name after the other renames them all at once, by induction on the names. -/
theorem spacing_renameAliases (known : ∀ name ∈ names, kind.Alias name) (text : List Char)
    : spacing (renameAliases names text)
      = ⟨(spacing text).lead, (spacing text).spaced.map (.map (narrowedToken names))⟩ := by
  induction names generalizing text with
  | nil =>
      have same : SpacedToken.map (narrowedToken []) = id :=
        funext fun t => by rw [SpacedToken.map, narrowedToken_nil]; rfl
      rw [renameAliases_nil, same, List.map_id]
  | cons name names ih =>
      rw [List.forall_mem_cons] at known
      have new := known.1.optimized
      have step : renameAliases (name :: names) text
          = renameAliases names (rename name (optimizedAlias name) text) := rfl
      rw [step, ih known.2, spacing_rename known.1.letters new.ne_nil new.letters, List.map_map]
      refine congrArg _ (List.map_congr_left fun t _ => ?_)
      simp only [Function.comp, SpacedToken.map, narrowedToken_renamedToken]

theorem tokens_renameAliases (known : ∀ name ∈ names, kind.Alias name) (text : List Char)
    : tokens (renameAliases names text) = (tokens text).map (narrowedToken names) := by
  rw [← tokens_spacing, ← tokens_spacing, spacing_renameAliases known]
  simp [Spacing.tokens, SpacedToken.map]

end TypeKind

namespace CompressStorage

open TypeKind

variable {kind : TypeKind} {text : List Char}

/-- Replacing definitions retypes the tokens, up to the form of the names in them: by induction on
the text.
-/
theorem tokens_replace_bareTypedef {form : List Char → List Char}
    (alike : ∀ name ∈ kind.definedNames (tokens text), form (optimizedAlias name) = form name)
    : (tokens (kind.idiom.replace bareTypedef text)).map form
      = (kind.retyped 0 (tokens text)).map form := by
  have bound := wordBound kind
  have head := (opens_bareTypedef kind kind).head_isWord
  induction text using bound.text_induction with
  | nil => rfl
  | outside c s outside ih =>
      have sign : ∀ token ∈ signToken c, token ≠ opener :=
        kind.definition.signToken_ne_first
      rw [tokens_cons outside, definedNames_append sign] at alike
      rw [bound.replace_cons outside, tokens_cons outside, tokens_cons outside, retyped_append sign,
        List.map_append, List.map_append, ih alike]
  | word word s filled all ended nothing ih =>
      have unread := definition?_of_scan filled all ended nothing
      rw [tokens_word_append filled all ended, definedNames, unread] at alike
      rw [bound.replace_word filled all ended nothing,
        tokens_word_append filled all ((head s).trans ended), tokens_word_append filled all ended,
        retyped, unread, List.map_cons, List.map_cons, ih alike]
  | hit found lexeme s scanned first last ih =>
      have known := alias_of_scan scanned
      have defines := defines_of_scan scanned
      rw [tokens_append last, defines.definedNames_append, List.forall_mem_cons] at alike
      rw [bound.replace_hit scanned, tokens_bareTypedef_append known, tokens_append last,
        defines.retyped_append]
      simp only [List.map_cons, alike.1, ih alike.2]

/-- A narrowed text without notes has the narrowed tokens. -/
theorem tokens_bareNarrow (kind : TypeKind) (text : List Char)
    : tokens (bareNarrow kind text) = kind.narrowedTokens (tokens text) := by
  have known : ∀ name ∈ kind.definedNames (tokens text), kind.Alias name := by
    intro name member
    rw [← findAll_eq_definedNames] at member
    exact alias_of_findAll member
  rw [bareNarrow, findAll_eq_definedNames, tokens_renameAliases known, narrowedTokens]
  refine tokens_replace_bareTypedef fun name member => ?_
  simp [narrowedToken, member, optimizedAlias_again]

-----------------------------------------------------------------------------------------
-- The whole template
-----------------------------------------------------------------------------------------

/-- The tokens that a text should have after compressed storage, given its own ones. -/
def storageTokens (settings : Settings) (facts : Facts) (ts : List (List Char))
    : List (List Char) :=
  let ts := if fits settings facts Facts.speed then speeds.narrowedTokens ts else ts
  if fits settings facts Facts.satellites then satellites.narrowedTokens ts else ts

/-- Speeds and numbers of satellites have no name in common. -/
theorem speeds_apart_satellites (name : List Char) (named : speeds.named name = true)
    : satellites.named name = false := by
  simp only [TypeKind.named, speeds, satellites, List.any_cons, List.any_nil, Bool.or_false,
    endsWith, List.isSuffixOf_iff_suffix] at named ⊢
  refine Bool.eq_false_iff.mpr fun other => ?_
  rcases List.suffix_or_suffix_of_suffix named (List.isSuffixOf_iff_suffix.mp other) with
    inner | outer
  · exact absurd inner (by decide)
  · exact absurd outer (by decide)

/-- The first text is the second one with notes, and the second one is code. -/
structure NotedCode (u x : List Char) : Prop where
  noted : Noted lineNote none u x
  code : codeOnly x = true

namespace NotedCode

variable {u x : List Char}

theorem tokens_clean (both : NotedCode u x)
    : tokens (clean u) = tokens x :=
  both.noted.tokensFrom_clean isLineNote_lineNote both.code []

theorem narrow (both : NotedCode u x) (ends : kind.idiom.EndsLines x)
    : NotedCode (CompressStorage.narrow kind.idiom u) (bareNarrow kind x) :=
  ⟨noted_narrow ends both.noted, codeOnly_bareNarrow kind both.code⟩

/-- Code has no formats, and notes bring none. -/
theorem narrowSpeeds_eq (narrowed : NotedCode (CompressStorage.narrow speeds.idiom text) x)
    : narrowSpeeds text = CompressStorage.narrow speeds.idiom text := by
  have absent : speedFormat.occursIn (CompressStorage.narrow speeds.idiom text) = false := by
    refine Bool.eq_false_iff.mpr fun occurs => ?_
    obtain ⟨start, lexeme, rest, found, whole, scanned, -⟩ :=
      wordBound_speedFormat.exists_of_occursIn occurs
    obtain ⟨read, same, shape⟩ := scan_speedFormat scanned
    obtain rfl := List.append_cancel_right same
    obtain ⟨space, gap₁, gap₂, directive, gap₃, gap₄, -, -, -, -, -, -, rfl⟩ := shape.shape
    have quote : '"' ∈ CompressStorage.narrow speeds.idiom text := by
      rw [whole]
      simp
    rcases narrowed.noted.mem quote with inText | inNote
    · exact not_mem_of_codeOnly narrowed.code inText
    · exact absurd inNote (by decide)
  rw [narrowSpeeds, speedTypedef_eq, Idiom.replace_of_not_occursIn absent, ite_self]

end NotedCode

/-- Main statement: the cleaned rewrite of code has the tokens of the code, with the definitions
narrowed that fit and with their names in narrowed form, if these definitions end their lines.
-/
theorem tokens_clean_rewrite (settings : Settings) (facts : Facts) (text : List Char)
    (plain : ∀ part ∈ ["//", "/*", "\"", "'"], occurs part.toList text = false)
    (speedLines : fits settings facts Facts.speed = true → speedTypedef.EndsLines text)
    (satelliteLines : fits settings facts Facts.satellites = true
      → satellitesTypedef.EndsLines text)
    : tokens (clean (rewrite settings facts text)) = storageTokens settings facts (tokens text) := by
  rw [speedTypedef_eq] at speedLines
  rw [satellitesTypedef_eq] at satelliteLines
  have start : NotedCode text text := ⟨.refl text, codeOnly_of_absent plain⟩
  unfold rewrite storageTokens
  rw [satellitesTypedef_eq]
  cases speedsFit : fits settings facts Facts.speed with
  | false =>
      cases satellitesFit : fits settings facts Facts.satellites with
      | false => exact start.tokens_clean
      | true =>
          have narrowed := start.narrow (satelliteLines satellitesFit)
          exact narrowed.tokens_clean.trans (tokens_bareNarrow satellites text)
  | true =>
      have narrowed := start.narrow (speedLines speedsFit)
      simp only [if_true, narrowed.narrowSpeeds_eq, ← tokens_bareNarrow]
      cases satellitesFit : fits settings facts Facts.satellites with
      | false => exact narrowed.tokens_clean
      | true =>
          have lines := endsLines_bareNarrow speeds_apart_satellites (satelliteLines satellitesFit)
          exact (narrowed.narrow lines).tokens_clean

/-- The facts of values that fit a single byte. -/
def byteFacts : Facts :=
  (Facts.empty.insert (Facts.maxOf Facts.speed) 120.0).insert (Facts.maxOf Facts.satellites) 24.0

/-- Two definitions, each on its own line, and a declaration that uses them. -/
def ownLines : List Char :=
  ("typedef double generic_speed;\ntypedef unsigned int satellites;\n"
    ++ "generic_speed speedOf(satellites n);\n").toList

/-- Definitions on their own lines are narrowed and hide nothing. -/
theorem tokens_clean_rewrite_ownLines
    : tokens (clean (rewrite .standard byteFacts ownLines))
      = ["typedef", "unsigned", "char", "optimized_speed", ";", "typedef", "unsigned", "char",
          "satellites", ";", "optimized_speed", "speedOf", "(", "satellites", "n", ")", ";"].map
        String.toList := by
  refine (tokens_clean_rewrite .standard byteFacts ownLines ?_ ?_ ?_).trans ?_
  · decide +kernel
  · exact fun _ => by decide +kernel
  · exact fun _ => by decide +kernel
  · decide +kernel

/-- A definition with a declaration behind it on its line. -/
def sharedLine : List Char :=
  "typedef double speed; int x;".toList

/-- The note behind the definition hides the declaration. -/
theorem sharedLine_hidden
    : (∀ part ∈ ["//", "/*", "\"", "'"], occurs part.toList sharedLine = false)
      ∧ authorizes .standard byteFacts = true
      ∧ tokens (clean (rewrite .standard byteFacts sharedLine))
        ≠ storageTokens .standard byteFacts (tokens sharedLine) := by
  decide +kernel

end CompressStorage

end RangeTuner.Rewrite
