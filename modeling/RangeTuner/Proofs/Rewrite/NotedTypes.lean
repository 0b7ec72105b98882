import RangeTuner.Proofs.Rewrite.RepeatedNarrowing
import RangeTuner.Proofs.Text.StatementLines

/-! Narrowed types with and without the notes behind them. Definitions are statements, and what
stands for them is a definition as a single byte and a note. Where definitions end their lines,
narrowing puts each note at the end of a line, whatever notes the text already has. Main
statements: a narrowed text is one without notes, with notes, and narrowing one kind leaves the
lines of another.
-/

namespace RangeTuner.Text

/-- A sign of a text is one of its tokens. -/
theorem mem_tokens_of_sign {c : Char} {s : List Char} (outside : isWord c = false)
    (visible : isBlank c = false) (member : c ∈ s)
    : [c] ∈ tokens s := by
  obtain ⟨start, rest, rfl⟩ := List.append_of_mem member
  have edge : (c :: rest).head?.any isWord = false := outside
  rw [tokens_append (.inr edge), tokens_cons_of_sign outside visible]
  simp

end RangeTuner.Text

namespace RangeTuner.Rewrite

open RangeTuner.Text

namespace TypeKind

variable {kind other : TypeKind} {name lexeme s t : List Char}

-----------------------------------------------------------------------------------------
-- Definitions as statements
-----------------------------------------------------------------------------------------

/-- The only sign of a definition is its last token. -/
theorem Defines.exists_eq_concat {lead : List (List Char)} (defines : kind.Defines name lead)
    : ∃ words, lead = words ++ [[';']] ∧ [';'] ∉ words := by
  obtain ⟨named, type, member, rfl⟩ := defines
  refine ⟨opener :: (type.map String.toList ++ [name]), by simp, ?_⟩
  have long : ∀ word ∈ signWords ++ baseWords, 2 ≤ word.toList.length := by decide
  intro among
  rcases List.mem_cons.mp among with first | behind
  · exact absurd first (by decide)
  · rcases List.mem_append.mp behind with inType | last
    · obtain ⟨word, within, same⟩ := List.mem_map.mp inType
      have short := long word (listed_of_types member word within)
      rw [same] at short
      exact absurd short (by decide)
    · have short := two_le_length named
      rw [← List.mem_singleton.mp last] at short
      exact absurd short (by decide)

/-- What is read of a definition has its only semicolon at its end. -/
theorem Defines.exists_eq_statement (defines : kind.Defines name (tokens lexeme))
    (closed : lexeme.getLast? = some ';')
    : ∃ start, lexeme = start ++ [';'] ∧ ';' ∉ start := by
  obtain ⟨start, rfl⟩ := List.getLast?_eq_some_iff.mp closed
  obtain ⟨words, same, absent⟩ := defines.exists_eq_concat
  have edge : ([';'] : List Char).head?.any isWord = false := (by decide : isWord ';' = false)
  rw [tokens_append (.inr edge)] at same
  obtain rfl : tokens start = words := List.append_cancel_right same
  exact ⟨start, rfl, fun member => absent (mem_tokens_of_sign (by decide) (by decide) member)⟩

/-- A definition is read the same whatever follows: its tokens say so up to its semicolon. -/
theorem scan_append_of_scan {rest : List Char}
    (scanned : kind.scan (lexeme ++ rest) = some (name, rest)) (t : List Char)
    : kind.scan (lexeme ++ t) = some (name, t) := by
  obtain ⟨read, whole, first, closed, -, defines⟩ := scan_eq_some scanned
  obtain rfl := List.append_cancel_right whole
  have visible : (lexeme ++ t).head?.any isBlank = false := by
    rw [List.head?_append_of_ne_nil _ (by rintro rfl; cases first), first]
    decide
  have edge : lexeme.getLast?.any isWord = false := by
    rw [closed]
    decide
  obtain ⟨tail, again, -⟩ := scan_of_tokens visible defines (tokens_append (.inl edge))
  obtain ⟨lexeme', whole', -, closed', -, defines'⟩ := scan_eq_some again
  obtain ⟨start, rfl, single⟩ := defines.exists_eq_statement closed
  obtain ⟨start', rfl, single'⟩ := defines'.exists_eq_statement closed'
  simp only [List.append_assoc, List.singleton_append] at whole'
  obtain rfl := eq_of_append_cons_eq single single' whole'
  obtain rfl : t = tail := by simpa using whole'
  exact again

theorem statements (kind : TypeKind) : kind.idiom.Statements kind.inner := by
  refine ⟨wordBound kind, ?_⟩
  intro s found rest scanned
  obtain ⟨lexeme, rfl, -, closed, -, defines⟩ := scan_eq_some scanned
  refine ⟨lexeme, rfl, ?_, closed, ?_, scan_append_of_scan scanned⟩
  · obtain ⟨start, rfl, single⟩ := defines.exists_eq_statement closed
    rwa [List.dropLast_concat]
  · obtain ⟨more, cut, follows⟩ := defines.exists_eq_cons
    rw [cut]
    exact kind.definition.inside more follows

/-- No definition is read at a word other than the opener. -/
theorem scan_of_word {word : List Char} (filled : word ≠ []) (all : ∀ c ∈ word, isWord c = true)
    (ended : s.head?.any isWord = false) (other : word ≠ opener)
    : kind.scan (word ++ s) = none := by
  refine Option.eq_none_iff_forall_ne_some.mpr ?_
  intro ⟨found, rest⟩ scanned
  obtain ⟨more, -, start⟩ := starts_of_scan scanned
  rw [tokens_word_append filled all ended] at start
  exact other (List.cons_prefix_cons.mp start).1.symm

end TypeKind

namespace CompressStorage

open TypeKind

variable {kind other : TypeKind} {name s t u x : List Char} {before : Option Char}

-----------------------------------------------------------------------------------------
-- Definitions as a single byte, and the notes behind them
-----------------------------------------------------------------------------------------

/-- The note behind a narrowed definition. -/
def lineNote : List Char :=
  byteNote ++ "sufficient".toList

theorem isLineNote_lineNote : IsLineNote lineNote := by
  refine ⟨⟨"  ".toList, " rangeopt: 0-255 sufficient".toList, by decide, by decide, ?_⟩, by decide⟩
  exact List.all_eq_true.mp (by decide)

theorem quiet_lineNote : quietFrom calm none lineNote = true := by
  decide

/-- A definition as a single byte, without its note. -/
def bareTypedef (name : List Char) : List Char :=
  opener ++ ' ' :: ("unsigned".toList ++ ' ' :: ("char".toList ++ ' ' ::
    (optimizedAlias name ++ [';'])))

theorem byteTypedef_eq_append (name : List Char)
    : byteTypedef name = bareTypedef name ++ lineNote := by
  simp only [byteTypedef_eq, bareTypedef, lineNote, List.append_assoc, List.cons_append,
    List.nil_append]

theorem getLast?_bareTypedef (name : List Char)
    : (bareTypedef name).getLast? = some ';' := by
  simp only [bareTypedef, ← List.cons_append, ← List.append_assoc, List.getLast?_concat]

theorem unsigned_letters : ∀ c ∈ "unsigned".toList, isWord c = true :=
  List.all_eq_true.mp (by decide)

theorem char_letters : ∀ c ∈ "char".toList, isWord c = true :=
  List.all_eq_true.mp (by decide)

theorem tokens_bareTypedef_append (known : kind.Alias name) (t : List Char)
    : tokens (bareTypedef name ++ t)
      = opener :: "unsigned".toList :: "char".toList :: optimizedAlias name :: [';'] :: tokens t := by
  have new := known.optimized
  have edge : (';' :: t).head?.any isWord = false := (by decide : isWord ';' = false)
  simp only [bareTypedef, List.append_assoc, List.cons_append, List.nil_append]
  rw [tokens_word_space opener_ne_nil opener_letters,
    tokens_word_space (by decide) unsigned_letters, tokens_word_space (by decide) char_letters,
    tokens_word_append new.ne_nil new.letters edge, tokens_cons_of_sign (by decide) (by decide)]

theorem opens_bareTypedef (kind other : TypeKind)
    : kind.idiom.Opens other.inner bareTypedef := by
  refine ⟨wordBound kind, ?_⟩
  intro lexeme found rest _
  exact ⟨opener, _, rfl, opener_ne_nil, opener_letters, inner_opener,
    fun t _ => (by decide : isWord ' ' = false)⟩

/-- The new name of an alias stands in no definition of a kind that is apart. -/
theorem inner_optimizedAlias (known : kind.Alias name) (apart : other.named name = false)
    : other.inner (optimizedAlias name) = false := by
  have new := known.optimized
  have unlisted : optimizedAlias name ∉ (other.signs ++ other.bases).map String.toList := by
    intro member
    obtain ⟨word, within, same⟩ := List.mem_map.mp member
    have listed := (other.signs_listed.append other.bases_listed).subset within
    exact new.ne_keyword (List.mem_append_right ["typedef", ";"] listed) same.symm
  have unnamed : other.named (optimizedAlias name) = false := by rw [named_optimizedAlias, apart]
  have unclosed : optimizedAlias name ≠ [';'] := new.ne_keyword (by decide : ";" ∈ keywords)
  simp only [TypeKind.inner, unlisted, unnamed, decide_false, Bool.false_or, beq_eq_false_iff_ne]
  exact unclosed

theorem opens_optimizedAlias (known : kind.Alias name) {inner : List Char → Bool}
    (outer : inner (optimizedAlias name) = false)
    : (wholeWord name).Opens inner fun _ => optimizedAlias name := by
  have new := known.optimized
  refine ⟨wordBound_wholeWord name, ?_⟩
  intro lexeme found rest scanned
  obtain ⟨-, -, -, ended⟩ := scan_wholeWord_iff.mp scanned
  refine ⟨optimizedAlias name, [], by simp, new.ne_nil, new.letters, outer, fun t same => ?_⟩
  rw [List.nil_append, same, ended]

-----------------------------------------------------------------------------------------
-- Renamed aliases
-----------------------------------------------------------------------------------------

/-- What each renaming keeps, renaming one after the other keeps. -/
theorem renameAliases_induction {motive : List Char → Prop} {names : List (List Char)}
    (step : ∀ name ∈ names, ∀ s, motive s → motive (rename name (optimizedAlias name) s))
    (start : motive s)
    : motive (renameAliases names s) := by
  induction names generalizing s with
  | nil => exact start
  | cons name names ih =>
      rw [List.forall_mem_cons] at step
      exact ih step.2 (step.1 s start)

theorem sealed_wholeWord (name : List Char) : (wholeWord name).Sealed := by
  refine ⟨wordBound_wholeWord name, ?_⟩
  intro s found rest scanned
  obtain ⟨rfl, filled, all, ended⟩ := scan_wholeWord_iff.mp scanned
  refine ⟨name, rfl, ?_, fun t same => scan_wholeWord_iff.mpr ⟨rfl, filled, all, same.trans ended⟩⟩
  exact fun member => absurd (all ';' (List.mem_of_mem_dropLast member)) (by decide)

theorem pieces_lineNote_append {α : Type} {idiom : Idiom α} (bound : idiom.WordBound)
    (spares : idiom.Spares calm) (edge : t.head?.any isWord = false)
    : idiom.pieces (lineNote ++ t) = lineNote.map .plain ++ idiom.pieces t := by
  rw [Idiom.pieces, spares.piecesFrom_append quiet_lineNote, bound.piecesFrom_edge (.inr edge)]

/-- Renaming an alias leaves notes where they are. -/
theorem noted_rename (known : kind.Alias name) (noted : Noted lineNote before u x)
    : Noted lineNote before (rename name (optimizedAlias name) u)
      (rename name (optimizedAlias name) x) := by
  cases generic : after? "generic_".toList name with
  | none => simpa only [optimizedAlias_of_not_generic generic, rename_self] using noted
  | some rest =>
      refine (noted.replace (sealed_wholeWord name) isLineNote_lineNote
        (fun t => pieces_lineNote_append (wordBound_wholeWord name) (spares_wholeWord generic))
        (fun _ => True) (fun _ _ _ _ => trivial) ?_ trivial).1
      intro lexeme found s u before scanned _ behind
      obtain ⟨whole, filled, all, -⟩ := scan_wholeWord_iff.mp scanned
      obtain rfl := List.append_cancel_right whole
      refine Noted.append (behind.mono ?_ _)
      rw [List.getLast?_eq_some_getLast filled]
      intro last
      exact absurd (all _ (List.getLast_mem filled)) (by rw [Option.some.inj last]; decide)

theorem noted_renameAliases {names : List (List Char)} (known : ∀ name ∈ names, kind.Alias name)
    (noted : Noted lineNote before u x)
    : Noted lineNote before (renameAliases names u) (renameAliases names x) := by
  induction names generalizing u x with
  | nil => exact noted
  | cons name names ih =>
      rw [List.forall_mem_cons] at known
      exact ih known.2 (noted_rename known.1 noted)

-----------------------------------------------------------------------------------------
-- Narrowed texts
-----------------------------------------------------------------------------------------

/-- The text with the definitions of a kind narrowed, without notes. -/
def bareNarrow (kind : TypeKind) (text : List Char) : List Char :=
  renameAliases (kind.idiom.findAll text) (kind.idiom.replace bareTypedef text)

/-- Main statement: where definitions end their lines, the narrowed text is the one without notes,
with notes, and so it is where the text had notes before.
-/
theorem noted_narrow (ends : kind.idiom.EndsLines x) (noted : Noted lineNote before u x)
    : Noted lineNote before (narrow kind.idiom u) (bareNarrow kind x) := by
  have statements := kind.statements
  have bound := statements.bound
  have spares : kind.idiom.Spares calm := spares_of_literal (by decide) _
  have step : ∀ lexeme found s u before, kind.idiom.scan (lexeme ++ s) = some (found, s)
      → kind.idiom.EndsLines (lexeme ++ s)
      → Noted lineNote lexeme.getLast? u (kind.idiom.replace bareTypedef s)
      → Noted lineNote before (byteTypedef found ++ u)
        (bareTypedef found ++ kind.idiom.replace bareTypedef s) := by
    intro lexeme found s u before scanned has behind
    obtain ⟨read, whole, -, closed, -⟩ := statements.reads _ _ _ scanned
    obtain rfl := List.append_cancel_right whole
    rw [closed] at behind
    rw [byteTypedef_eq_append, List.append_assoc]
    refine Noted.append ?_
    rw [getLast?_bareTypedef]
    exact .note (bound.blankLine_replace (has.here bound scanned)) behind
  obtain ⟨replaced, found⟩ := noted.replace statements.sealed isLineNote_lineNote
    (fun t => pieces_lineNote_append bound spares) kind.idiom.EndsLines
    (fun a s edge has => has.of_append bound edge) step ends
  rw [narrow, found]
  exact noted_renameAliases (fun _ member => alias_of_findAll member) replaced

/-- Narrowed definitions bring no definition of any kind. -/
theorem endsLines_bareTypedef_append (known : kind.Alias name) (ends : other.idiom.EndsLines t)
    : other.idiom.EndsLines (bareTypedef name ++ t) := by
  have bound := wordBound other
  have new := known.optimized
  have space : ∀ s : List Char, (' ' :: s).head?.any isWord = false :=
    fun _ => (by decide : isWord ' ' = false)
  have close : (';' :: t).head?.any isWord = false := (by decide : isWord ';' = false)
  -- no definition is read at any word of the narrowed one
  have word : ∀ {word s : List Char}, word ≠ [] → (∀ c ∈ word, isWord c = true)
      → s.head?.any isWord = false → word ≠ opener → other.idiom.EndsLines s
      → other.idiom.EndsLines (word ++ s) := by
    intro word s filled all ended differs ends
    refine .word bound filled all (fun found rest scanned => ?_) ends
    rw [show other.idiom.scan (word ++ s) = none from scan_of_word filled all ended differs]
      at scanned
    cases scanned
  have cut := tokens_bareTypedef_append known t
  simp only [bareTypedef, List.append_assoc, List.cons_append, List.nil_append] at cut ⊢
  refine .word bound opener_ne_nil opener_letters ?_ (.cons bound (by decide) ?_)
  · intro found rest scanned
    have starts := starts_of_scan scanned
    rw [cut] at starts
    exact absurd starts not_starts_byte
  · refine word (by decide) unsigned_letters (space _) (by decide) (.cons bound (by decide) ?_)
    refine word (by decide) char_letters (space _) (by decide) (.cons bound (by decide) ?_)
    refine word new.ne_nil new.letters close ?_ (.cons bound (by decide) ends)
    exact new.ne_keyword (by decide : "typedef" ∈ keywords)

/-- Main statement: narrowing a kind leaves the lines that definitions of another one end. -/
theorem endsLines_bareNarrow (apart : ∀ name, kind.named name = true → other.named name = false)
    (ends : other.idiom.EndsLines x)
    : other.idiom.EndsLines (bareNarrow kind x) := by
  have statements := other.statements
  refine renameAliases_induction ?_ ?_
  · intro name member s ends
    have known := alias_of_findAll member
    have new := known.optimized
    have opens := opens_optimizedAlias known (inner_optimizedAlias known (apart name known.named))
    refine ends.replace statements opens ?_
    intro lexeme found rest scanned t edge ends
    obtain ⟨-, -, -, ended⟩ := scan_wholeWord_iff.mp scanned
    refine .word statements.bound new.ne_nil new.letters (fun found rest scanned => ?_) ends
    have unread : other.idiom.scan (optimizedAlias name ++ t) = none :=
      scan_of_word new.ne_nil new.letters (edge.trans ended)
        (new.ne_keyword (by decide : "typedef" ∈ keywords))
    rw [unread] at scanned
    cases scanned
  · refine ends.replace statements (opens_bareTypedef kind other) ?_
    exact fun lexeme found rest scanned t _ ends =>
      endsLines_bareTypedef_append (alias_of_scan scanned) ends

theorem code_bareTypedef (known : kind.Alias name)
    : ∀ c ∈ bareTypedef name, c ∉ ['"', '\'', '/'] := by
  have word : ∀ {word : List Char}, (∀ c ∈ word, isWord c = true)
      → ∀ c ∈ word, c ∉ ['"', '\'', '/'] := fun all c member => code_of_isWord (all c member)
  simp only [bareTypedef, List.forall_mem_append, List.forall_mem_cons]
  exact ⟨word opener_letters, by decide, word unsigned_letters, by decide, word char_letters,
    by decide, word known.optimized.letters, by decide, by simp⟩

/-- Narrowed code is code. -/
theorem codeOnly_bareNarrow (kind : TypeKind) (code : codeOnly x = true)
    : codeOnly (bareNarrow kind x) = true := by
  refine renameAliases_induction (motive := fun s => codeOnly s = true) ?_ ?_
  · intro name member s code
    have known := alias_of_findAll member
    have opens : (wholeWord name).Opens (fun _ => false) fun _ => optimizedAlias name :=
      opens_optimizedAlias known rfl
    refine opens.codeOnly_replace ?_ code
    exact fun _ _ _ _ c member => code_of_isWord (known.optimized.letters c member)
  · refine (opens_bareTypedef kind kind).codeOnly_replace ?_ code
    exact fun lexeme found rest scanned => code_bareTypedef (alias_of_scan scanned)

end CompressStorage

end RangeTuner.Rewrite
