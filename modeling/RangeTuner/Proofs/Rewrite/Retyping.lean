import RangeTuner.Proofs.Rewrite.TypeDefinitions
import RangeTuner.Proofs.Text.SpacedTokens
import RangeTuner.Proofs.Text.TokenPatterns

/-! Texts whose tokens hold no definition of some kind. Narrowing a kind leaves none of it, and
brings none of another kind, whether or not a comment behind the narrowed definition grows together
with the next word; renaming aliases keeps this. Main statements: where a definition in a narrowed
text comes from, and the tokens of a text with a word renamed.
-/

namespace RangeTuner.Rewrite

open RangeTuner.Text

attribute [local instance] lawfulBEq_token

namespace TypeKind

variable {kind other : TypeKind} {token name : List Char} {ts us lead : List (List Char)}

-----------------------------------------------------------------------------------------
-- Definitions as a pattern
-----------------------------------------------------------------------------------------

/-- Whether a token may stand in a definition of the kind, behind its first word. -/
def inner (kind : TypeKind) (token : List Char) : Bool :=
  token ∈ (kind.signs ++ kind.bases).map String.toList || kind.named token || token == [';']

theorem inner_opener : kind.inner opener = false := by
  have plain : ∀ word ∈ signWords ++ baseWords, word ≠ "typedef" := by decide
  have unlisted : opener ∉ (kind.signs ++ kind.bases).map String.toList := by
    intro member
    obtain ⟨word, within, same⟩ := List.mem_map.mp member
    exact plain word ((kind.signs_listed.append kind.bases_listed).subset within)
      (String.toList_inj.mp same)
  have unnamed : kind.named opener = false :=
    not_named_of_keyword (by decide : "typedef" ∈ keywords)
  simp only [inner, unlisted, unnamed, decide_false, Bool.false_or]
  decide

/-- A definition of the kind, with any name. -/
def definition (kind : TypeKind) : TokenPattern where
  first := opener
  inner := kind.inner
  follows ts := ∃ name, kind.Defines name (opener :: ts)
  long := by decide
  inside := by
    rintro ts ⟨name, named, type, member, same⟩ token among
    obtain ⟨-, rfl⟩ := List.cons.inj same
    rcases List.mem_append.mp among with inType | last
    · obtain ⟨word, within, rfl⟩ := List.mem_map.mp inType
      have listed := List.mem_map_of_mem (f := String.toList) (mem_of_types member word within)
      simp only [inner, listed, decide_true, Bool.true_or]
    · rcases List.mem_pair.mp last with rfl | rfl
      · simp [inner, named]
      · simp [inner]

theorem Defines.exists_eq_cons (defines : kind.Defines name lead)
    : ∃ more, lead = opener :: more ∧ kind.definition.follows more := by
  obtain ⟨named, type, member, rfl⟩ := defines
  exact ⟨_, rfl, name, named, type, member, rfl⟩

theorem Defines.within (defines : kind.Defines name lead)
    : kind.definition.Within lead := by
  obtain ⟨more, rfl, follows⟩ := defines.exists_eq_cons
  exact ⟨more, follows, List.infix_rfl⟩

/-- Where a definition starts, it is read. -/
theorem scan_of_starts {s : List Char} (visible : s.head?.any isBlank = false)
    (starts : kind.definition.Starts (tokens s))
    : ∃ name rest, kind.scan s = some (name, rest) := by
  obtain ⟨more, ⟨name, defines⟩, rest, same⟩ := starts
  obtain ⟨tail, scanned, -⟩ := scan_of_tokens visible defines same.symm
  exact ⟨name, tail, scanned⟩

/-- Where a definition is read, it starts. -/
theorem starts_of_scan {s rest : List Char} (scanned : kind.scan s = some (name, rest))
    : kind.definition.Starts (tokens s) := by
  obtain ⟨lexeme, rfl, -, closed, -, defines⟩ := scan_eq_some scanned
  obtain ⟨more, cut, follows⟩ := defines.exists_eq_cons
  refine ⟨more, follows, ?_⟩
  have edge : lexeme.getLast?.any isWord = false := by
    rw [closed]
    decide
  rw [tokens_append (.inl edge), cut]
  exact List.prefix_append _ _

/-- Where no definition stands among the tokens, the idiom does not occur. -/
theorem occursIn_idiom_eq_false {text : List Char}
    (absent : ¬ kind.definition.Within (tokens text))
    : kind.idiom.occursIn text = false := by
  refine TokenPattern.occursIn_eq_false (wordBound kind) ?_ absent
  exact fun lexeme rest name scanned => (defines_of_scan scanned).within

-----------------------------------------------------------------------------------------
-- Narrowed definitions
-----------------------------------------------------------------------------------------

/-- What stands for definitions starts like them and brings no definition of a kind. -/
structure Hides (kind other : TypeKind) (new : List Char → List Char) : Prop where
  starts : ∀ name, ∃ rest, new name = opener ++ ' ' :: rest
  nothing : ∀ name t, kind.Alias name → other.definition.Within (tokens (new name ++ t))
    → other.definition.Within (tokens t)

/-- The text has a definition of another kind, where the idiom of a kind finds nothing. -/
structure Misses (kind other : TypeKind) (s : List Char) : Prop where
  has : other.definition.Within (tokens s)
  place : ∃ t, t.head?.any isBlank = false ∧ kind.scan t = none
    ∧ other.definition.Starts (tokens t)

section

variable {new : List Char → List Char}

theorem Hides.traces (hides : kind.Hides other new)
    : other.definition.Traces kind.idiom new (kind.Misses other) := by
  refine ⟨wordBound kind, ?_, ?_, ?_, ?_⟩
  · intro s t within misses
    exact ⟨misses.has.mono within.isInfix, misses.place⟩
  · intro s visible nothing starts
    exact ⟨starts.within, s, visible, nothing, starts⟩
  · intro s name _ _ t
    obtain ⟨rest, same⟩ := hides.starts name
    rw [same, List.append_assoc]
    refine ⟨head?_word_append opener_ne_nil opener_letters _, ?_⟩
    rw [List.cons_append, tokens_word_space opener_ne_nil opener_letters, TokenPattern.going,
      List.takeWhile_cons_of_neg (by simp [definition, inner_opener])]
  · intro lexeme name rest t scanned _ _ has
    exact .inl (hides.nothing name t (alias_of_scan scanned) has)

/-- Narrowing leaves no definition of its kind. -/
theorem Hides.not_within (hides : kind.Hides kind new) (s : List Char)
    : ¬ kind.definition.Within (tokens (kind.idiom.replace new s)) := by
  intro has
  obtain ⟨place, visible, nothing, starts⟩ := (hides.traces.source_of_replace has).place
  obtain ⟨name, rest, scanned⟩ := scan_of_starts visible starts
  rw [nothing] at scanned
  cases scanned

end

-----------------------------------------------------------------------------------------
-- The narrowed definitions of the templates
-----------------------------------------------------------------------------------------

/-- A definition starts with a base type, or with a sign word in front of one. -/
theorem words_of_starts {a b : List Char}
    (starts : kind.definition.Starts (opener :: a :: b :: ts))
    : a ∈ kind.bases.map String.toList
      ∨ a ∈ kind.signs.map String.toList ∧ b ∈ kind.bases.map String.toList := by
  obtain ⟨more, ⟨name, -, type, member, same⟩, start⟩ := starts
  obtain ⟨-, rfl⟩ := List.cons.inj same
  simp only [types, List.mem_append, List.mem_map, List.mem_flatMap] at member
  rcases member with ⟨base, within, rfl⟩ | ⟨sign, among, base, within, rfl⟩
  · obtain ⟨rfl, -⟩ := List.cons_prefix_cons.mp (List.cons_prefix_cons.mp start).2
    exact .inl (List.mem_map_of_mem within)
  · obtain ⟨rfl, behind⟩ := List.cons_prefix_cons.mp (List.cons_prefix_cons.mp start).2
    obtain ⟨rfl, -⟩ := List.cons_prefix_cons.mp behind
    exact .inr ⟨List.mem_map_of_mem among, List.mem_map_of_mem within⟩

/-- A definition as a single byte is of no kind. -/
theorem not_starts_byte
    : ¬ kind.definition.Starts (opener :: "unsigned".toList :: "char".toList :: ts) := by
  have unlisted : ∀ word : String, word ∉ baseWords
      → word.toList ∉ kind.bases.map String.toList := by
    intro word absent base
    obtain ⟨word', within, same⟩ := List.mem_map.mp base
    exact absent (String.toList_inj.mp same ▸ kind.bases_listed.subset within)
  intro starts
  rcases words_of_starts starts with base | ⟨-, base⟩
  · exact unlisted "unsigned" (by decide) base
  · exact unlisted "char" (by decide) base

/-- The type that coordinates are narrowed to. -/
def floatWord : List Char :=
  "float".toList

theorem floatWord_ne_nil : floatWord ≠ [] := by
  decide

theorem floatWord_letters : ∀ c ∈ floatWord, isWord c = true :=
  List.all_eq_true.mp (by decide)

theorem narrowedTypedef_eq (name : List Char)
    : NarrowCoordinates.narrowedTypedef name
      = opener ++ ' ' :: (floatWord ++ ' ' :: (optimizedAlias name ++ [';'])) := by
  have words : "typedef float ".toList = opener ++ ' ' :: (floatWord ++ [' ']) := by decide
  unfold NarrowCoordinates.narrowedTypedef
  generalize "typedef float ".toList = start at words ⊢
  simp [words]

/-- The comment behind a definition as a single byte, up to its last word. -/
def byteNote : List Char :=
  ("  // " ++ tag ++ " 0-255 ").toList

theorem byteTypedef_eq (name : List Char)
    : CompressStorage.byteTypedef name
      = opener ++ ' ' :: ("unsigned".toList ++ ' ' :: ("char".toList ++ ' ' ::
        (optimizedAlias name ++ ';' :: (byteNote ++ "sufficient".toList)))) := by
  have words : "typedef unsigned char ".toList
      = opener ++ ' ' :: ("unsigned".toList ++ ' ' :: ("char".toList ++ [' '])) := by decide
  have note : (";  // " ++ tag ++ " 0-255 sufficient").toList
      = ';' :: (byteNote ++ "sufficient".toList) := by decide
  unfold CompressStorage.byteTypedef
  generalize "typedef unsigned char ".toList = start at words ⊢
  generalize "unsigned".toList = sign at words ⊢
  generalize "char".toList = type at words ⊢
  generalize (";  // " ++ tag ++ " 0-255 sufficient").toList = last at note ⊢
  simp [words, note]

theorem hides_narrowedTypedef
    : coordinates.Hides coordinates NarrowCoordinates.narrowedTypedef := by
  refine ⟨fun name => ⟨_, narrowedTypedef_eq name⟩, ?_⟩
  intro name t known has
  have new := known.optimized
  have sign_edge : (';' :: t).head?.any isWord = false := (by decide : isWord ';' = false)
  simp only [narrowedTypedef_eq, List.append_assoc, List.cons_append, List.nil_append] at has
  rw [tokens_word_space opener_ne_nil opener_letters,
    tokens_word_space floatWord_ne_nil floatWord_letters,
    tokens_word_append new.ne_nil new.letters sign_edge,
    tokens_cons_of_sign (by decide) (by decide), TokenPattern.within_cons] at has
  rcases has with starts | behind
  · rcases words_of_starts starts with base | ⟨sign, -⟩
    · exact absurd base (by decide)
    · exact absurd sign (by decide)
  · rw [TokenPattern.within_cons_of_ne (by decide),
      TokenPattern.within_cons_of_ne (new.ne_keyword (by decide : "typedef" ∈ keywords)),
      TokenPattern.within_cons_of_ne (by decide)] at behind
    exact behind

theorem hides_byteTypedef (kind other : TypeKind)
    : kind.Hides other CompressStorage.byteTypedef := by
  refine ⟨fun name => ⟨_, byteTypedef_eq name⟩, ?_⟩
  intro name t known has
  have unsigned_letters : ∀ c ∈ "unsigned".toList, isWord c = true :=
    List.all_eq_true.mp (by decide)
  have char_letters : ∀ c ∈ "char".toList, isWord c = true := List.all_eq_true.mp (by decide)
  have last_letters : ∀ c ∈ "sufficient".toList, isWord c = true :=
    List.all_eq_true.mp (by decide)
  have new := known.optimized
  have sign_edge : (';' :: (byteNote ++ ("sufficient".toList ++ t))).head?.any isWord = false :=
    (by decide : isWord ';' = false)
  have note_edge : byteNote.getLast?.any isWord = false := by decide
  have note_plain : ∀ token ∈ tokens byteNote, token ≠ opener := by decide
  simp only [byteTypedef_eq, List.append_assoc, List.cons_append] at has
  rw [tokens_word_space opener_ne_nil opener_letters,
    tokens_word_space (by decide) unsigned_letters, tokens_word_space (by decide) char_letters,
    tokens_word_append new.ne_nil new.letters sign_edge,
    tokens_cons_of_sign (by decide) (by decide), tokens_append (.inl note_edge),
    TokenPattern.within_cons] at has
  rcases has with starts | behind
  · exact absurd starts not_starts_byte
  · -- the note ends in a word that takes the next one, so no definition starts there
    have last_other : "sufficient".toList ++ t.takeWhile isWord ≠ opener := by
      intro same
      exact absurd (List.cons.inj same).1 (by decide)
    rw [TokenPattern.within_cons_of_ne (by decide : "unsigned".toList ≠ opener),
      TokenPattern.within_cons_of_ne (by decide : "char".toList ≠ opener),
      TokenPattern.within_cons_of_ne (new.ne_keyword (by decide : "typedef" ∈ keywords)),
      TokenPattern.within_cons_of_ne (TokenPattern.sign_ne_first ';'),
      TokenPattern.within_append_of_ne note_plain,
      tokens_word_append_takeWhile (by decide) last_letters,
      TokenPattern.within_cons_of_ne last_other] at behind
    exact behind.mono (tokens_dropWhile_suffix [] t).isInfix

-----------------------------------------------------------------------------------------
-- Renamed aliases
-----------------------------------------------------------------------------------------

/-- A token, renamed if it is a certain name. -/
def renamedToken (name new token : List Char) : List Char :=
  if token = name then new else token

end TypeKind

open TypeKind

/-- A word is read where it stands as a whole. -/
theorem scan_wholeWord_iff {name s rest : List Char} {found : Unit}
    : (wholeWord name).scan s = some (found, rest)
      ↔ s = name ++ rest ∧ name ≠ [] ∧ (∀ c ∈ name, isWord c = true)
        ∧ rest.head?.any isWord = false := by
  constructor
  · intro scanned
    obtain ⟨word, middle, read, checked⟩ := Scanner.bind_eq_some_iff.mp scanned
    obtain ⟨rfl, rfl⟩ := Scanner.guard_eq_some_iff.mp checked
    exact Scanner.word_eq_some_iff.mp read
  · intro read
    exact Scanner.bind_eq_some_iff.mpr
      ⟨name, rest, Scanner.word_eq_some_iff.mpr read, Scanner.guard_eq_some_iff.mpr ⟨rfl, rfl⟩⟩

theorem wordBound_wholeWord (name : List Char) : (wholeWord name).WordBound := by
  refine ⟨rfl, ?_⟩
  intro s found rest scanned
  obtain ⟨whole, filled, all, ended⟩ := scan_wholeWord_iff.mp scanned
  exact ⟨name, whole, head?_word filled all, .inr ended⟩

/-- A token where the word is not found is another one. -/
theorem ne_of_unread {name token s : List Char} (letters : ∀ c ∈ name, isWord c = true)
    (first : IsToken token s) (nothing : (wholeWord name).scan (token ++ s) = none)
    : token ≠ name := by
  rintro rfl
  cases first with
  | sign outside visible =>
      rw [letters _ (by simp)] at outside
      cases outside
  | word filled all ended =>
      have scanned : (wholeWord token).scan (token ++ s) = some ((), s) :=
        scan_wholeWord_iff.mpr ⟨rfl, filled, all, ended⟩
      rw [nothing] at scanned
      cases scanned

/-- Renaming a word renames it among the spaced tokens, and moves none. -/
theorem spacing_rename {name new : List Char} (old_letters : ∀ c ∈ name, isWord c = true)
    (filled : new ≠ []) (letters : ∀ c ∈ new, isWord c = true) (text : List Char)
    : spacing (rename name new text)
      = ⟨(spacing text).lead, (spacing text).spaced.map (.map (renamedToken name new))⟩ := by
  have replaced := (wordBound_wholeWord name).spacing_replace (fun _ => new)
    (fun ts us => us = ts.map (.map (renamedToken name new))) ?_ rfl ?_ ?_ text
  · rw [rename, ← replaced.1, ← replaced.2]
  · exact fun _ _ _ _ => head?_word filled letters
  · rintro token s _ first nothing rfl
    simp [SpacedToken.map, renamedToken, ne_of_unread old_letters first nothing]
  · intro found lexeme s t scanned edge lead behind
    obtain ⟨whole, filled', all, ended⟩ := scan_wholeWord_iff.mp scanned
    obtain rfl := List.append_cancel_right whole
    rw [spacing_word_append filled' all ended,
      spacing_word_append filled letters (edge.trans ended), lead, behind]
    simp [SpacedToken.map, renamedToken]

/-- Renaming a word renames it among the tokens. -/
theorem tokens_rename {name new : List Char} (old_letters : ∀ c ∈ name, isWord c = true)
    (filled : new ≠ []) (letters : ∀ c ∈ new, isWord c = true) (text : List Char)
    : tokens (rename name new text) = (tokens text).map (renamedToken name new) := by
  rw [← tokens_spacing, ← tokens_spacing, spacing_rename old_letters filled letters]
  simp [Spacing.tokens, SpacedToken.map]

namespace TypeKind

variable {kind other : TypeKind} {name : List Char} {ts lead : List (List Char)}

/-- Renaming a token to its narrowed form makes no keyword of a token. -/
theorem Alias.renamedToken_eq_keyword (known : kind.Alias name) {word : String}
    (member : word ∈ keywords) {token : List Char}
    (same : renamedToken name (optimizedAlias name) token = word.toList)
    : token = word.toList := by
  unfold renamedToken at same
  split at same
  · exact absurd same (known.optimized.ne_keyword member)
  · exact same

theorem named_renamedToken (name token : List Char)
    : other.named (renamedToken name (optimizedAlias name) token) = other.named token := by
  unfold renamedToken
  split
  · next same => rw [same, named_optimizedAlias]
  · rfl

theorem Alias.renamed_eq_keywords (known : kind.Alias name) {words : List String}
    (listed : ∀ word ∈ words, word ∈ keywords)
    (same : ts.map (renamedToken name (optimizedAlias name)) = words.map String.toList)
    : ts = words.map String.toList := by
  induction words generalizing ts with
  | nil => simpa using same
  | cons word words ih =>
      rw [List.forall_mem_cons] at listed
      obtain ⟨token, more, rfl, first, last⟩ := List.map_eq_cons_iff.mp same
      rw [known.renamedToken_eq_keyword listed.1 first, ih listed.2 last, List.map_cons]

/-- Renamed tokens are a definition only if the tokens are. -/
theorem Alias.defines_of_map (known : kind.Alias name) {new : List Char}
    (defines : other.Defines new (ts.map (renamedToken name (optimizedAlias name))))
    : ∃ old, other.Defines old ts := by
  obtain ⟨named, type, member, shape⟩ := defines
  obtain ⟨first, behind, rfl, started, shape₁⟩ := List.map_eq_cons_iff.mp shape
  obtain ⟨words, last, rfl, typed, shape₂⟩ := List.map_eq_append_iff.mp shape₁
  obtain ⟨old, final, rfl, rfl, shape₃⟩ := List.map_eq_cons_iff.mp shape₂
  have listed : ∀ word ∈ type, word ∈ keywords := fun word among =>
    List.mem_append_right ["typedef", ";"] (listed_of_types member word among)
  refine ⟨old, by rwa [named_renamedToken] at named, type, member, ?_⟩
  rw [known.renamedToken_eq_keyword (by decide : "typedef" ∈ keywords) started,
    known.renamed_eq_keywords listed typed,
    known.renamed_eq_keywords (by decide : ∀ word ∈ [";"], word ∈ keywords) shape₃]
  rfl

theorem Alias.within_of_map (known : kind.Alias name)
    (within : other.definition.Within (ts.map (renamedToken name (optimizedAlias name))))
    : other.definition.Within ts := by
  obtain ⟨more, ⟨new, defines⟩, first, last, same⟩ := within
  obtain ⟨front, back, rfl, cut, -⟩ := List.map_eq_append_iff.mp same.symm
  obtain ⟨start, inside, rfl, -, lead⟩ := List.map_eq_append_iff.mp cut
  have defines' : other.Defines new (inside.map (renamedToken name (optimizedAlias name))) :=
    lead ▸ defines
  obtain ⟨old, defines⟩ := known.defines_of_map defines'
  exact defines.within.mono ⟨start, back, rfl⟩

/-- Renaming the aliases of a kind brings no definition, by induction on the aliases. -/
theorem within_of_renameAliases {names : List (List Char)}
    (known : ∀ name ∈ names, kind.Alias name) {text : List Char}
    (has : other.definition.Within (tokens (renameAliases names text)))
    : other.definition.Within (tokens text) := by
  induction names generalizing text with
  | nil => exact has
  | cons name names ih =>
      rw [List.forall_mem_cons] at known
      have renamed := ih known.2 has
      rw [tokens_rename known.1.letters known.1.optimized.ne_nil
        known.1.optimized.letters] at renamed
      exact known.1.within_of_map renamed

theorem alias_of_findAll {text name : List Char} (member : name ∈ kind.idiom.findAll text)
    : kind.Alias name := by
  have finds : kind.idiom.scan.Finds kind.Alias := fun _ _ _ => alias_of_scan
  obtain ⟨piece, within, same⟩ := List.mem_filterMap.mp member
  cases piece with
  | plain c => cases same
  | hit found lexeme =>
      cases same
      exact Idiom.forall_found finds within

end TypeKind

end RangeTuner.Rewrite
