import RangeTuner.Proofs.Rewrite.ConstantsPlace
import RangeTuner.Proofs.Rewrite.NotedTypes
import RangeTuner.Proofs.Rewrite.RepeatedPlanar
import RangeTuner.Proofs.Text.BlockBraces

/-! Templates and the block structure. What the templates write in the place of types, formats and
includes has the braces of what stood there, and an approximated body has those of the old one
in its comments. Main statement: the templates that are not for guards keep the braces of every
text in their order.
-/

namespace RangeTuner.Rewrite

open RangeTuner.Decimal RangeTuner.Spec RangeTuner.Text

variable {name lexeme text : List Char}

-----------------------------------------------------------------------------------------
-- Names and type definitions
-----------------------------------------------------------------------------------------

/-- The narrowed form of a name has the braces of the name. -/
theorem braces_optimizedAlias (name : List Char) : braces (optimizedAlias name) = braces name := by
  unfold optimizedAlias
  split
  next rest generic =>
    rw [after?_eq_some_iff.mp generic, braces_append, braces_append]
    rfl
  next => rfl

theorem braces_rename (name text : List Char)
    : braces (rename name (optimizedAlias name) text) = braces text := by
  refine Idiom.braces_replace fun found lexeme member => ?_
  obtain rfl : name = lexeme :=
    Idiom.forall_hits (fun _ _ _ scanned => ⟨name, scan_wholeWord scanned, rfl⟩) member
  exact braces_optimizedAlias name

/-- Renaming aliases keeps the braces, by induction on the aliases. -/
theorem braces_renameAliases (names : List (List Char)) (text : List Char)
    : braces (renameAliases names text) = braces text := by
  unfold renameAliases
  induction names generalizing text with
  | nil => rfl
  | cons name names ih => exact (ih _).trans (braces_rename name text)

namespace TypeKind

variable {kind : TypeKind}

/-- The tokens of a definition are words and a semicolon. -/
theorem Defines.token_cases {ts : List (List Char)} (defines : kind.Defines name ts)
    (known : kind.Alias name)
    : ∀ token ∈ ts, (∀ c ∈ token, isWord c = true) ∨ token = [';'] := by
  obtain ⟨-, type, member, rfl⟩ := defines
  intro token among
  simp only [List.mem_cons, List.mem_append, List.mem_map, List.not_mem_nil, or_false] at among
  rcases among with rfl | ⟨word, within, rfl⟩ | rfl | rfl
  · exact .inl opener_letters
  · exact .inl (letters_of_mem (listed_of_types member word within)).2
  · exact .inl known.letters
  · exact .inr rfl

/-- A definition has no braces, and neither has its name. -/
theorem braces_of_scan {rest : List Char} (found : kind.scan (lexeme ++ rest) = some (name, rest))
    : braces lexeme = [] ∧ braces name = [] := by
  have known := alias_of_scan found
  have sign : ∀ c, isWord c = false → isBlank c = false → c ≠ ';' → c ∉ lexeme := by
    intro c outside visible other member
    have among := mem_tokens_of_sign outside visible member
    rcases (defines_of_scan found).token_cases known [c] among with letters | same
    · rw [letters c List.mem_cons_self] at outside
      cases outside
    · exact other (List.cons.inj same).1
  have opening : '{' ∉ lexeme := sign '{' (by decide) (by decide) (by decide)
  have closing : '}' ∉ lexeme := sign '}' (by decide) (by decide) (by decide)
  exact ⟨braces_eq_nil opening closing fun _ => id,
    braces_eq_nil (by decide) (by decide) known.letters⟩

/-- A definition that is replaced by a text with the braces of its name keeps the braces. -/
theorem braces_replace {new : List Char → List Char}
    (narrow : ∀ name, braces (new name) = braces name) (text : List Char)
    : braces (kind.idiom.replace new text) = braces text := by
  have reads : kind.idiom.scan.Reads fun name lexeme =>
      braces lexeme = [] ∧ braces name = [] := by
    intro s name rest found
    obtain ⟨lexeme, rfl, -⟩ := scan_eq_some found
    exact ⟨lexeme, rfl, braces_of_scan found⟩
  refine Idiom.braces_replace fun name lexeme member => ?_
  obtain ⟨plain, plain'⟩ := Idiom.forall_hits reads member
  rw [narrow, plain, plain']

end TypeKind

-----------------------------------------------------------------------------------------
-- Coordinates
-----------------------------------------------------------------------------------------

namespace NarrowCoordinates

theorem braces_rewrite (text : List Char) : braces (rewrite text) = braces text := by
  have declarations : ∀ text, braces (coordinateDeclaration.replace narrowedDeclaration text)
      = braces text := by
    intro text
    have reads : coordinateDeclaration.scan.Reads fun found lexeme =>
        lexeme = "double".toList ++ (found.1 ++ found.2) := by
      intro s found rest scanned
      exact ⟨_, (scan_coordinateDeclaration_iff.mp scanned).whole, rfl⟩
    refine Idiom.braces_replace fun found lexeme member => ?_
    rw [Idiom.forall_hits reads member, narrowedDeclaration, List.append_assoc, braces_append,
      braces_append "double".toList]
    rfl
  have typedefs : ∀ name, braces (narrowedTypedef name) = braces name := by
    intro name
    have words : braces "typedef float ".toList = [] := by decide +kernel
    unfold narrowedTypedef
    rw [braces_append, braces_append, braces_optimizedAlias, words]
    exact List.append_nil _
  calc braces (rewrite text)
    _ = braces (renameAliases (aliasTypedef.findAll text)
          (aliasTypedef.replace narrowedTypedef text)) := declarations _
    _ = braces (aliasTypedef.replace narrowedTypedef text) := braces_renameAliases _ _
    _ = braces text := by
      rw [TypeKind.aliasTypedef_eq]
      exact TypeKind.braces_replace typedefs text

end NarrowCoordinates

-----------------------------------------------------------------------------------------
-- Storage
-----------------------------------------------------------------------------------------

namespace CompressStorage

theorem braces_narrow (kind : TypeKind) (text : List Char)
    : braces (narrow kind.idiom text) = braces text := by
  have bytes : ∀ name, braces (byteTypedef name) = braces name := by
    intro name
    have words : braces "typedef unsigned char ".toList = [] := by decide +kernel
    have note : braces (";  // " ++ tag ++ " 0-255 sufficient").toList = [] := by decide +kernel
    unfold byteTypedef
    rw [braces_append, braces_append, braces_optimizedAlias, words, note]
    exact List.append_nil _
  exact (braces_renameAliases _ _).trans (TypeKind.braces_replace bytes text)

/-- A format that is printed without decimals keeps the braces of its literal, and there are no
others around them.
-/
theorem Prints.braces_whole {p : SpeedPrint} (prints : Prints lexeme p)
    : braces p.whole = braces lexeme := by
  have blank : ∀ {gap : List Char}, (∀ c ∈ gap, isBlank c = true) → braces gap = [] :=
    fun blanks => braces_eq_nil (by decide) (by decide) blanks
  have argument : braces p.argument = [] := braces_eq_nil (by decide) (by decide) prints.argument
  have sign : ∀ {c : Char} (s : List Char), braces [c] = [] → braces (c :: s) = braces s := by
    intro c s plain
    rw [braces_cons, plain, List.nil_append]
  obtain ⟨space, gap₁, gap₂, directive, gap₃, gap₄, blank₀, blank₁, blank₂, blank₃, blank₄,
    ⟨start, letter, rfl, signs, letters⟩, rfl⟩ := prints.shape
  have directive : braces (start ++ [letter]) = [] := by
    have last : braces [letter] = [] := by
      rcases List.mem_pair.mp letters with rfl | rfl <;> rfl
    rw [braces_append, braces_eq_nil (by decide) (by decide) signs, last]
    rfl
  have nothing : braces [] = [] := rfl
  have call : braces "printf".toList = [] := by decide
  have whole := whole_append p []
  rw [List.append_nil] at whole
  rw [whole]
  simp (disch := decide) only [braces_append, sign, call, blank blank₀, blank blank₁, blank blank₂,
    blank blank₃, blank blank₄, directive, argument, nothing, List.nil_append, List.append_nil]

theorem braces_narrowSpeeds (text : List Char) : braces (narrowSpeeds text) = braces text := by
  have formats : ∀ text, braces (speedFormat.replace SpeedPrint.whole text) = braces text := by
    intro text
    refine Idiom.braces_replace fun p lexeme member => ?_
    have reads : speedFormat.scan.Reads fun p lexeme => Prints lexeme p := by
      intro s p rest scanned
      exact scan_speedFormat scanned
    exact (Idiom.forall_hits reads member).braces_whole
  have types : braces (narrow speedTypedef text) = braces text := by
    rw [TypeKind.speedTypedef_eq]
    exact braces_narrow _ text
  unfold narrowSpeeds
  split
  · exact (formats _).trans types
  · exact types

theorem braces_rewrite (settings : Settings) (facts : Facts) (text : List Char)
    : braces (rewrite settings facts text) = braces text := by
  have speeds : braces (if fits settings facts Facts.speed then narrowSpeeds text else text)
      = braces text := by
    split
    · exact braces_narrowSpeeds text
    · rfl
  simp only [rewrite, TypeKind.satellitesTypedef_eq]
  split
  · exact (braces_narrow _ _).trans speeds
  · exact speeds

end CompressStorage

-----------------------------------------------------------------------------------------
-- Distances
-----------------------------------------------------------------------------------------

theorem braces_fixed (places : Nat) (x : Float) : braces (fixed places x).toList = [] :=
  braces_eq_nil (not_mem_fixed (by simp [IsFigure]) (by decide) places x)
    (not_mem_fixed (by simp [IsFigure]) (by decide) places x) fun _ => id

namespace PlanarDistance

/-- The filled lines of a text have its braces, since the others have none, by induction on the
lines.
-/
theorem flatMap_braces_filledLines (body : List Char)
    : (filledLines body).flatMap braces = braces body := by
  rw [← flatMap_braces_lines body, filledLines]
  induction lines body with
  | nil => rfl
  | cons line rest ih =>
      rw [List.filter_cons, List.flatMap_cons]
      split
      · rw [List.flatMap_cons, ih]
      · next blank =>
          have blanks : isBlankLine line = true := by simpa using blank
          have plain : braces line = [] :=
            braces_eq_nil (by decide) (by decide) (List.all_eq_true.mp blanks)
          rw [ih, plain, List.nil_append]

theorem braces_indentation (body : List Char) : braces (indentation body) = [] :=
  braces_eq_nil (by decide) (by decide) fun _ => isBlank_of_mem_indentation

/-- The comments with the lines of an old body have the braces of the body. -/
theorem braces_keptLines (f : Function) : braces (keptLines f) = braces f.body := by
  have comment : ∀ line, braces (indentation f.body ++ ('/' :: '/' :: commentText line ++ ['\n']))
      = braces line := by
    intro line
    have slashes : braces ('/' :: '/' :: commentText line) = braces (commentText line) := rfl
    rw [braces_append, braces_indentation, List.nil_append, braces_append, slashes, commentText,
      braces_dropEndWhile (by decide) (by decide), trimEnd,
      braces_dropEndWhile (by decide) (by decide)]
    exact List.append_nil _
  rw [keptLines, braces_flatMap, List.flatMap_congr fun line _ => comment line]
  exact flatMap_braces_filledLines f.body

/-- The new lines of a function have no braces. -/
theorem braces_planarLines (settings : Settings) (facts : Facts) {f : Function}
    {read : List Char} (shape : Approximable f read)
    : ∀ line ∈ planarLines settings facts f, braces line.toList = [] := by
  have type : braces f.type.toList = [] :=
    (by decide : ∀ type ∈ ["double", "float"], braces type.toList = []) f.type shape.type
  have names : ∀ name ∈ [f.latitude₁, f.longitude₁, f.latitude₂, f.longitude₂],
      braces name = [] :=
    fun name among => braces_eq_nil (by decide) (by decide) (shape.names name among)
  simp only [List.forall_mem_cons] at names
  obtain ⟨latitude₁, longitude₁, latitude₂, longitude₂, -⟩ := names
  unfold planarLines
  simp only [List.forall_mem_cons, String.toList_append, String.toList_ofList, braces_append,
    braces_fixed, type, latitude₁, longitude₁, latitude₂, longitude₂, List.append_nil,
    List.append_eq_nil_iff]
  -- what is left are the texts between the numbers and the names
  and_intros
  all_goals decide

/-- An approximated function has the braces of the function. -/
theorem braces_planar (settings : Settings) (facts : Facts) {f : Function} {read : List Char}
    (shape : Approximable f read)
    : braces (planar settings facts f) = braces read := by
  have new : braces (newLines settings facts f) = [] := by
    rw [newLines, braces_flatMap]
    refine List.flatMap_eq_nil_iff.mpr fun line member => ?_
    rw [braces_append, braces_append, braces_indentation,
      braces_planarLines settings facts shape line member]
    rfl
  have block : braces (planarBlock settings facts f) = '{' :: (braces f.body ++ ['}']) := by
    show '{' :: braces (newLines settings facts f ++ (keptLines f ++ ['}'])) = _
    rw [braces_append, new, List.nil_append, braces_append, braces_keptLines]
    rfl
  rw [planar_eq, shape.whole, braces_append, braces_append, block, braces_cons, braces_append]
  rfl

theorem braces_rewrite (settings : Settings) (facts : Facts) (text : List Char)
    : braces (rewrite settings facts text) = braces text :=
  Idiom.braces_replace fun _ _ member =>
    braces_planar settings facts (Idiom.forall_hits reads_idiom member)

end PlanarDistance

-----------------------------------------------------------------------------------------
-- Zone constants
-----------------------------------------------------------------------------------------

namespace ZoneConstants

theorem braces_constants (settings : Settings) (center : Float × Float) (area : Float)
    : braces (constants settings center area) = [] := by
  obtain ⟨latitude, longitude⟩ := center
  have whole : ∀ lines : List String, (∀ line ∈ lines, braces line.toList = [])
      → braces (lines.flatMap fun line => line.toList ++ ['\n']) = [] := by
    intro lines plain
    rw [braces_flatMap]
    refine List.flatMap_eq_nil_iff.mpr fun line member => ?_
    rw [braces_append, plain line member]
    rfl
  refine whole _ ?_
  simp only [List.forall_mem_cons, String.toList_append, braces_append, braces_fixed,
    List.append_nil, List.append_eq_nil_iff]
  and_intros
  all_goals decide

theorem braces_rewrite (settings : Settings) (facts : Facts) (text : List Char)
    : braces (rewrite settings facts text) = braces text := by
  obtain ⟨rest, whole, -⟩ := start_endsLine text
  have after : text.drop (start text).length = rest := by
    conv => lhs; arg 2; rw [whole]
    exact List.drop_left
  unfold rewrite
  split
  · rfl
  split
  · rfl
  · simp only [after]
    rw [braces_append, braces_append, braces_constants, List.append_nil,
      braces_dropWhile (by decide) (by decide), ← braces_append, ← whole]

end ZoneConstants

/-- Main statement: the templates that are not for guards keep the braces of every text in their
order. In an approximated function, the braces of the old body stand in the comments with its
lines.
-/
theorem braces_kept (settings : Settings) (facts : Facts) (text : List Char)
    : braces (NarrowCoordinates.rewrite text) = braces text
      ∧ braces (PlanarDistance.rewrite settings facts text) = braces text
      ∧ braces (CompressStorage.rewrite settings facts text) = braces text
      ∧ braces (ZoneConstants.rewrite settings facts text) = braces text
      ∧ ∀ f, braces (PlanarDistance.keptLines f) = braces f.body :=
  ⟨NarrowCoordinates.braces_rewrite text, PlanarDistance.braces_rewrite settings facts text,
    CompressStorage.braces_rewrite settings facts text,
    ZoneConstants.braces_rewrite settings facts text, PlanarDistance.braces_keptLines⟩

end RangeTuner.Rewrite
