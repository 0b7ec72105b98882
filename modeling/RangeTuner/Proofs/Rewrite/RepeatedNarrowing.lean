import RangeTuner.Proofs.Rewrite.Retyping

/-! Narrowing twice. The template for coordinates and the one for storage leave no definition that
they narrow: not in what they put in, not at its edges, and not by their later steps. Main
statements: on the rewrite of a text each of the two does nothing.
-/

namespace RangeTuner.Rewrite

open RangeTuner.Text RangeTuner.Spec TypeKind Scanner

variable {s text : List Char}

-----------------------------------------------------------------------------------------
-- Types that no longer occur
-----------------------------------------------------------------------------------------

theorem findAll_of_not_within {kind : TypeKind} (absent : ¬ kind.definition.Within (tokens text))
    : kind.idiom.findAll text = [] := by
  have nowhere := occursIn_idiom_eq_false absent
  simpa [Idiom.occursIn] using nowhere

theorem replace_of_not_within {kind : TypeKind} (absent : ¬ kind.definition.Within (tokens text))
    (new : List Char → List Char)
    : kind.idiom.replace new text = text :=
  Idiom.replace_of_not_occursIn (occursIn_idiom_eq_false absent) new

theorem renameAliases_nil (text : List Char) : renameAliases [] text = text :=
  rfl

-----------------------------------------------------------------------------------------
-- Coordinates
-----------------------------------------------------------------------------------------

namespace NarrowCoordinates

/-- The name starts like an axis. -/
def namesAxis (name : List Char) : Bool :=
  (after? "lat".toList name).isSome || (after? "lon".toList name).isSome

theorem namesAxis_iff {name : List Char}
    : namesAxis name = true ↔ ∃ rest, name = "lat".toList ++ rest ∨ name = "lon".toList ++ rest := by
  simp only [namesAxis, Bool.or_eq_true, Option.isSome_iff_exists, after?_eq_some_iff, exists_or]

/-- A declaration of a coordinate as `double`. -/
def declaration : TokenPattern where
  first := "double".toList
  inner := namesAxis
  follows ts := ∃ name, namesAxis name = true ∧ ts = [name]
  long := by decide
  inside := by
    rintro ts ⟨name, named, rfl⟩ token among
    rwa [List.mem_singleton.mp among]

theorem double_letters : ∀ c ∈ "double".toList, isWord c = true :=
  List.all_eq_true.mp (by decide)

/-- What is read of a declaration. -/
structure Reads (s : List Char) (found : List Char × List Char) (rest : List Char) : Prop where
  whole : s = ("double".toList ++ (found.1 ++ found.2)) ++ rest
  wide : found.1 ≠ []
  blank : ∀ c ∈ found.1, isBlank c = true
  filled : found.2 ≠ []
  letters : ∀ c ∈ found.2, isWord c = true
  ended : rest.head?.any isWord = false
  named : namesAxis found.2 = true

theorem scan_coordinateDeclaration_iff {found : List Char × List Char} {rest : List Char}
    : coordinateDeclaration.scan s = some (found, rest) ↔ Reads s found rest := by
  constructor
  · intro scanned
    obtain ⟨_, s₁, started, scanned₁⟩ := bind_eq_some_iff.mp scanned
    obtain rfl := literal_eq_some_iff.mp started
    obtain ⟨gap, s₂, spaced, scanned₂⟩ := bind_eq_some_iff.mp scanned₁
    obtain ⟨wide, ran⟩ := run1_eq_some_iff.mp spaced
    obtain ⟨rfl, blank, -⟩ := run_eq_some_iff.mp ran
    obtain ⟨name, s₃, read, scanned₃⟩ := bind_eq_some_iff.mp scanned₂
    obtain ⟨rfl, filled, letters, ended⟩ := word_eq_some_iff.mp read
    obtain ⟨_, s₄, checked, scanned₄⟩ := bind_eq_some_iff.mp scanned₃
    obtain ⟨named, rfl⟩ := guard_eq_some_iff.mp checked
    obtain ⟨rfl, rfl⟩ := Prod.mk.inj (Option.some.inj scanned₄)
    exact ⟨by simp only [List.append_assoc], wide, blank, filled, letters, ended, named⟩
  · rintro ⟨rfl, wide, blank, filled, letters, ended, named⟩
    obtain ⟨gap, name⟩ := found
    simp only [List.append_assoc]
    refine bind_eq_some_iff.mpr ⟨(), _, literal_eq_some_iff.mpr rfl, ?_⟩
    have visible : (name ++ rest).head?.any isBlank = false :=
      (IsToken.word filled letters ended).head_visible
    have stops : ∀ c ∈ (name ++ rest).head?, isBlank c = false :=
      (Option.any_eq_false _ _).mp visible
    have spaced : run1 isBlank (gap ++ (name ++ rest)) = some (gap, name ++ rest) :=
      run1_eq_some_iff.mpr ⟨wide, run_eq_some_iff.mpr ⟨rfl, blank, stops⟩⟩
    refine bind_eq_some_iff.mpr ⟨gap, _, spaced, ?_⟩
    refine bind_eq_some_iff.mpr ⟨name, _, word_eq_some_iff.mpr ⟨rfl, filled, letters, ended⟩, ?_⟩
    exact bind_eq_some_iff.mpr ⟨(), _, guard_eq_some_iff.mpr ⟨named, rfl⟩, rfl⟩

theorem wordBound_coordinateDeclaration : coordinateDeclaration.WordBound := by
  refine ⟨rfl, ?_⟩
  intro s found rest scanned
  obtain ⟨rfl, -, -, filled, letters, ended, -⟩ := scan_coordinateDeclaration_iff.mp scanned
  exact ⟨_, rfl, head?_word_append (by decide) double_letters _, .inr ended⟩

/-- Where a declaration starts, it is read. -/
theorem scan_of_declaration (visible : s.head?.any isBlank = false)
    (starts : declaration.Starts (tokens s))
    : ∃ found rest, coordinateDeclaration.scan s = some (found, rest) := by
  obtain ⟨ts, ⟨name, named, rfl⟩, more, same⟩ := starts
  obtain ⟨behind, rfl, -, ended, same⟩ :=
    word_of_tokens visible (by decide : "double".toList.head?.any isWord = true) same.symm
  have starts : name.head?.any isWord = true := by
    rcases namesAxis_iff.mp named with ⟨rest, rfl | rfl⟩
    · exact (by decide : isWord 'l' = true)
    · exact (by decide : isWord 'l' = true)
  obtain ⟨gap, middle, rfl, spaced, visible, same⟩ := blanks1_of_tokens ended starts same
  obtain ⟨gap', whole, wide, blank⟩ := blanks1_eq_some spaced
  obtain rfl := List.append_cancel_right whole
  obtain ⟨rest, rfl, read, -, -⟩ := word_of_tokens visible starts same
  obtain ⟨-, filled, letters, ended⟩ := word_eq_some_iff.mp read
  refine ⟨(gap, name), rest, scan_coordinateDeclaration_iff.mpr ?_⟩
  exact ⟨by simp only [List.append_assoc], wide, blank, filled, letters, ended, named⟩

/-- The declaration of a coordinate as `float`. -/
def narrowedDeclaration (found : List Char × List Char) : List Char :=
  floatWord ++ found.1 ++ found.2

theorem Reads.tokens_narrowed {found : List Char × List Char} {rest t : List Char}
    (reads : Reads s found rest) (edge : t.head?.any isWord = false)
    : tokens (narrowedDeclaration found ++ t) = floatWord :: found.2 :: tokens t := by
  rw [narrowedDeclaration, List.append_assoc, List.append_assoc,
    tokens_word_gap floatWord_ne_nil floatWord_letters reads.wide reads.blank,
    tokens_word_append reads.filled reads.letters edge]

/-- No pattern that needs the word before a declaration, and cannot go on over the narrowed one,
comes from narrowing declarations.
-/
theorem traces_narrowedDeclaration {pattern : TokenPattern} {source : List Char → Prop}
    (mono : ∀ s t, tokens s <:+ tokens t → source s → source t)
    (place : ∀ s, s.head?.any isBlank = false → coordinateDeclaration.scan s = none
      → pattern.Starts (tokens s) → source s)
    (outer : pattern.inner floatWord = false) (other : floatWord ≠ pattern.first)
    (others : ∀ name, namesAxis name = true → name ≠ pattern.first)
    : pattern.Traces coordinateDeclaration narrowedDeclaration source := by
  refine ⟨wordBound_coordinateDeclaration, mono, place, ?_, ?_⟩
  · intro s found rest scanned t
    have reads := scan_coordinateDeclaration_iff.mp scanned
    rw [narrowedDeclaration, List.append_assoc, List.append_assoc,
      tokens_word_gap floatWord_ne_nil floatWord_letters reads.wide reads.blank]
    refine ⟨head?_word_append floatWord_ne_nil floatWord_letters _, ?_⟩
    rw [TokenPattern.going, List.takeWhile_cons_of_neg (ne_true_of_eq_false outer)]
  · intro lexeme found rest t scanned _ edge within
    have reads := scan_coordinateDeclaration_iff.mp scanned
    rw [reads.tokens_narrowed (edge.trans reads.ended), TokenPattern.within_cons_of_ne other,
      TokenPattern.within_cons_of_ne (others _ reads.named)] at within
    exact .inl within

/-- A text on which nothing is left to narrow. -/
structure Narrowed (text : List Char) : Prop where
  typedefs : ¬ coordinates.definition.Within (tokens text)
  declarations : ¬ declaration.Within (tokens text)

theorem rewrite_of_narrowed (narrowed : Narrowed text)
    : rewrite text = text := by
  have quiet : coordinateDeclaration.occursIn text = false := by
    refine TokenPattern.occursIn_eq_false wordBound_coordinateDeclaration ?_ narrowed.declarations
    intro lexeme rest found scanned
    obtain ⟨whole, wide, blank, filled, letters, -, named⟩ :=
      scan_coordinateDeclaration_iff.mp scanned
    obtain rfl := List.append_cancel_right whole
    rw [tokens_word_gap (by decide) double_letters wide blank, tokens_of_word filled letters]
    exact ⟨[found.2], ⟨found.2, named, rfl⟩, List.infix_rfl⟩
  simp only [rewrite, aliasTypedef_eq, findAll_of_not_within narrowed.typedefs,
    replace_of_not_within narrowed.typedefs, renameAliases_nil]
  exact Idiom.replace_of_not_occursIn quiet _

theorem narrowed_rewrite (text : List Char)
    : Narrowed (rewrite text) := by
  have no_axis : ∀ name, namesAxis name = true → ∀ word, namesAxis word = false → name ≠ word := by
    rintro name named word unnamed rfl
    rw [unnamed] at named
    cases named
  constructor
  · intro within
    have traces : coordinates.definition.Traces coordinateDeclaration narrowedDeclaration
        fun s => coordinates.definition.Within (tokens s) :=
      traces_narrowedDeclaration (fun s t part has => has.mono part.isInfix)
        (fun s _ _ starts => starts.within) (by decide) (by decide)
        (fun name named => no_axis name named opener (by decide))
    have renamed := traces.source_of_replace within
    rw [aliasTypedef_eq] at renamed
    exact hides_narrowedTypedef.not_within text
      (within_of_renameAliases (fun name member => alias_of_findAll member) renamed)
  · intro within
    have traces : declaration.Traces coordinateDeclaration narrowedDeclaration fun _ => False := by
      refine traces_narrowedDeclaration (fun _ _ _ => id) ?_ (by decide) (by decide)
        (fun name named => no_axis name named _ (by decide))
      intro s visible nothing starts
      obtain ⟨found, rest, scanned⟩ := scan_of_declaration visible starts
      rw [nothing] at scanned
      cases scanned
    exact traces.source_of_replace within

end NarrowCoordinates

-----------------------------------------------------------------------------------------
-- Storage
-----------------------------------------------------------------------------------------

namespace CompressStorage

/-- A character of a directive for a number with decimals, before its letter. -/
def isDirectiveSign (c : Char) : Bool :=
  c == '-' || c == '+' || c == ' ' || c == '#' || c == '.' || isDigit c

/-- A directive for a number with decimals, after its percent sign. -/
def IsDecimal (directive : List Char) : Prop :=
  ∃ start letter, directive = start ++ [letter] ∧ (∀ c ∈ start, isDirectiveSign c = true)
    ∧ letter ∈ ['f', 'F']

/-- What is read of a format: the parts of the call, with what stands between them. -/
structure Prints (lexeme : List Char) (p : SpeedPrint) : Prop where
  shape : ∃ space gap₁ gap₂ directive gap₃ gap₄, (∀ c ∈ space, isBlank c = true)
    ∧ (∀ c ∈ gap₁, isBlank c = true) ∧ (∀ c ∈ gap₂, isBlank c = true)
    ∧ (∀ c ∈ gap₃, isBlank c = true) ∧ (∀ c ∈ gap₄, isBlank c = true) ∧ IsDecimal directive
    ∧ lexeme = "printf".toList ++ space ++ '(' :: (gap₁ ++ '"' :: (p.before ++ '%' ::
      (directive ++ p.after ++ '"' :: (gap₂ ++ ',' :: (gap₃ ++ (p.argument ++ gap₄)
        ++ [')'])))))
  argument : ∀ c ∈ p.argument, (isWord c || c == '.' || c == '>' || c == '-') = true

theorem spaced_eq_some {mark : String} {rest : List Char}
    (found : spaced mark s = some ((), rest))
    : ∃ gap gap', s = gap ++ (mark.toList ++ (gap' ++ rest)) ∧ (∀ c ∈ gap, isBlank c = true)
      ∧ ∀ c ∈ gap', isBlank c = true := by
  obtain ⟨_, s₁, first, found₁⟩ := bind_eq_some_iff.mp found
  obtain ⟨gap, rfl, blank⟩ := blanks_eq_some first
  obtain ⟨_, s₂, read, last⟩ := bind_eq_some_iff.mp found₁
  obtain rfl := literal_eq_some_iff.mp read
  obtain ⟨gap', rfl, blank'⟩ := blanks_eq_some last
  exact ⟨gap, gap', rfl, blank, blank'⟩

theorem reads_decimalDirective : decimalDirective.Reads fun _ read => IsDecimal read := by
  have flag : ∀ c, (c == '-' || c == '+' || c == ' ' || c == '#' || c == '0') = true
      → isDirectiveSign c = true := by
    intro c flag
    simp only [Bool.or_eq_true, beq_iff_eq] at flag
    rcases flag with (((rfl | rfl) | rfl) | rfl) | rfl <;> rfl
  have digit : ∀ c, isDigit c = true → isDirectiveSign c = true :=
    fun c digit => by simp [isDirectiveSign, digit]
  have point : ∀ c ∈ ".".toList, isDirectiveSign c = true := by
    intro c member
    obtain rfl : c = '.' := List.mem_singleton.mp member
    rfl
  have start : Scanner.ReadsOnly (fun c => isDirectiveSign c = true) (do
      let _ ← Scanner.run fun c => c == '-' || c == '+' || c == ' ' || c == '#' || c == '0'
      let _ ← Scanner.run isDigit
      Scanner.possibly do
        Scanner.literal "."
        let _ ← Scanner.run1 isDigit) :=
    (ReadsOnly.run flag).bind fun _ => (ReadsOnly.run digit).bind fun _ =>
      ReadsOnly.possibly ((ReadsOnly.literal point).bind fun _ =>
        (ReadsOnly.run1 digit).bind fun _ => .pure ())
  intro s found rest scanned
  obtain ⟨flags, s₁, ran, scanned₁⟩ := bind_eq_some_iff.mp scanned
  obtain ⟨digits, s₂, ran', scanned₂⟩ := bind_eq_some_iff.mp scanned₁
  obtain ⟨_, s₃, read, scanned₃⟩ := bind_eq_some_iff.mp scanned₂
  obtain ⟨letter, s₄, last, done⟩ := bind_eq_some_iff.mp scanned₃
  obtain ⟨before, rfl, signs⟩ := start s () s₃
    (bind_eq_some_iff.mpr ⟨flags, s₁, ran, bind_eq_some_iff.mpr ⟨digits, s₂, ran', read⟩⟩)
  obtain ⟨rfl, member⟩ := one_eq_some_iff.mp last
  obtain ⟨-, rfl⟩ := Prod.mk.inj (Option.some.inj done)
  refine ⟨before ++ [letter], by simp, before, letter, rfl, signs, ?_⟩
  simpa using member

theorem scan_speedFormat {p : SpeedPrint} {rest : List Char}
    (scanned : speedFormat.scan s = some (p, rest))
    : ∃ lexeme, s = lexeme ++ rest ∧ Prints lexeme p := by
  obtain ⟨_, s₁, read, scanned₁⟩ := bind_eq_some_iff.mp scanned
  obtain rfl := literal_eq_some_iff.mp read
  obtain ⟨_, s₂, read, scanned₂⟩ := bind_eq_some_iff.mp scanned₁
  obtain ⟨space, gap₁, rfl, blank, blank₁⟩ := spaced_eq_some read
  obtain ⟨_, s₃, read, scanned₃⟩ := bind_eq_some_iff.mp scanned₂
  obtain rfl := literal_eq_some_iff.mp read
  obtain ⟨before, s₄, ran, scanned₄⟩ := bind_eq_some_iff.mp scanned₃
  obtain ⟨rfl, -, -⟩ := run_eq_some_iff.mp ran
  obtain ⟨_, s₅, read, scanned₅⟩ := bind_eq_some_iff.mp scanned₄
  obtain rfl := literal_eq_some_iff.mp read
  obtain ⟨_, s₆, read, scanned₆⟩ := bind_eq_some_iff.mp scanned₅
  obtain ⟨directive, rfl, decimal⟩ := reads_decimalDirective _ _ _ read
  obtain ⟨after, s₇, read, scanned₇⟩ := bind_eq_some_iff.mp scanned₆
  obtain ⟨rfl, -⟩ := upTo_eq_some_iff.mp read
  obtain ⟨_, s₈, checked, scanned₈⟩ := bind_eq_some_iff.mp scanned₇
  obtain ⟨-, rfl⟩ := guard_eq_some_iff.mp checked
  obtain ⟨_, s₉, read, scanned₉⟩ := bind_eq_some_iff.mp scanned₈
  obtain ⟨gap₂, gap₃, rfl, blank₂, blank₃⟩ := spaced_eq_some read
  obtain ⟨argument, s₁₀, ran, scanned₁₀⟩ := bind_eq_some_iff.mp scanned₉
  obtain ⟨rfl, parts, -⟩ := run_eq_some_iff.mp ran
  obtain ⟨_, s₁₁, checked, scanned₁₁⟩ := bind_eq_some_iff.mp scanned₁₀
  obtain ⟨-, rfl⟩ := guard_eq_some_iff.mp checked
  obtain ⟨_, s₁₂, read, scanned₁₂⟩ := bind_eq_some_iff.mp scanned₁₁
  obtain ⟨gap₄, rfl, blank₄⟩ := blanks_eq_some read
  obtain ⟨_, s₁₃, read, scanned₁₃⟩ := bind_eq_some_iff.mp scanned₁₂
  obtain rfl := literal_eq_some_iff.mp read
  obtain ⟨rfl, rfl⟩ := Prod.mk.inj (Option.some.inj scanned₁₃)
  refine ⟨_, ?_, ⟨space, gap₁, gap₂, directive, gap₃, gap₄, blank, blank₁, blank₂, blank₃, blank₄,
    decimal, rfl⟩, parts⟩
  simp

theorem printf_letters : ∀ c ∈ "printf".toList, isWord c = true :=
  List.all_eq_true.mp (by decide)

theorem wordBound_speedFormat : speedFormat.WordBound := by
  refine ⟨rfl, ?_⟩
  intro s p rest scanned
  obtain ⟨lexeme, rfl, ⟨space, gap₁, gap₂, directive, gap₃, gap₄, -, -, -, -, -, -, rfl⟩, -⟩ :=
    scan_speedFormat scanned
  refine ⟨_, rfl, ?_, .inl ?_⟩
  · rw [List.append_assoc]
    exact head?_word_append (by decide) printf_letters _
  · simp only [← List.cons_append, ← List.append_assoc, List.getLast?_concat]
    decide

theorem whole_append (p : SpeedPrint) (t : List Char)
    : p.whole ++ t = "printf".toList ++ '(' :: ([] ++ '"' :: (p.before ++ '%' ::
      (['d'] ++ p.after ++ '"' :: ([] ++ ',' :: (' ' :: p.argument ++ ')' :: t))))) := by
  have start : "printf(\"".toList = "printf".toList ++ ['(', '"'] := by decide
  have middle : "%d".toList = ['%', 'd'] := by decide
  have last : "\", ".toList = ['"', ',', ' '] := by decide
  unfold SpeedPrint.whole
  generalize "printf(\"".toList = a at start ⊢
  generalize "%d".toList = b at middle ⊢
  generalize "\", ".toList = c at last ⊢
  generalize "printf".toList = d at start ⊢
  simp [start, middle, last]

/-- A pattern is cut by the signs of a printed speed. -/
structure Cut (pattern : TokenPattern) : Prop where
  signs : ∀ c ∈ ['(', '"', '%', ',', ')'], pattern.inner [c] = false
  printf : "printf".toList ≠ pattern.first ∧ pattern.inner "printf".toList = false
  directive : ∀ rest, 'd' :: rest ≠ pattern.first

theorem Cut.within_sign {pattern : TokenPattern} (cut : Cut pattern) {c : Char}
    (member : c ∈ ['(', '"', '%', ',', ')']) (s t : List Char)
    : pattern.Within (tokens (s ++ c :: t))
      ↔ pattern.Within (tokens s) ∨ pattern.Within (tokens t) := by
  have outside : ['(', '"', '%', ',', ')'].all (fun c => !isWord c && !isBlank c) = true := by
    decide
  have both := List.all_eq_true.mp outside c member
  simp only [Bool.and_eq_true, Bool.not_eq_true'] at both
  exact TokenPattern.within_sign both.1 both.2 (cut.signs c member) s t

/-- A pattern in the printed whole number stands in a part that the format had. -/
theorem Cut.within_of_whole {pattern : TokenPattern} (cut : Cut pattern) {lexeme t : List Char}
    {p : SpeedPrint} (prints : Prints lexeme p) (within : pattern.Within (tokens (p.whole ++ t)))
    : pattern.Within (tokens t) ∨ pattern.Within (tokens lexeme) := by
  obtain ⟨space, gap₁, gap₂, directive, gap₃, gap₄, -, -, -, blank₃, blank₄, -, rfl⟩ := prints.shape
  have paren := cut.within_sign (c := '(') (by simp)
  have quote := cut.within_sign (c := '"') (by simp)
  have percent := cut.within_sign (c := '%') (by simp)
  have comma := cut.within_sign (c := ',') (by simp)
  have close := cut.within_sign (c := ')') (by simp)
  have unstarted : ¬ pattern.Within (tokens "printf".toList) := by
    rw [tokens_of_word (by decide) printf_letters, TokenPattern.within_cons_of_ne cut.printf.1]
    exact TokenPattern.not_within_nil
  rw [whole_append] at within
  generalize "printf".toList = call at within unstarted ⊢
  rw [paren, quote, percent, quote, comma, close] at within
  rw [paren, quote, percent, quote, comma, close]
  rcases within with start | nothing | before | after | nothing | argument | behind
  · exact absurd start unstarted
  · exact absurd nothing TokenPattern.not_within_nil
  · exact .inr (.inr (.inr (.inl before)))
  · -- the directive ends in the word that the text behind it goes on with
    have letter : ∀ c ∈ ['d'], isWord c = true := by simpa using (by decide : isWord 'd' = true)
    rw [tokens_word_append_takeWhile (by simp) letter, List.singleton_append,
      TokenPattern.within_cons_of_ne (cut.directive _)] at after
    exact .inr (.inr (.inr (.inr (.inl
      (after.mono (tokens_dropWhile_suffix directive p.after).isInfix)))))
  · exact absurd nothing TokenPattern.not_within_nil
  · have edge : gap₄.head?.any isWord = false := by
      simpa using head?_blanks_append (s := []) blank₄ rfl
    rw [tokens_cons_of_isBlank (by decide)] at argument
    rw [tokens_blanks_append blank₃, tokens_append (.inr edge)]
    exact .inr (.inr (.inr (.inr (.inr (.inr (.inl
      (argument.mono (List.prefix_append _ _).isInfix)))))))
  · exact .inl behind

/-- Formats that print a speed as a whole number have no pattern that the text did not have. -/
theorem Cut.traces {pattern : TokenPattern} (cut : Cut pattern)
    : pattern.Traces speedFormat SpeedPrint.whole fun s => pattern.Within (tokens s) := by
  refine ⟨wordBound_speedFormat, fun s t part has => has.mono part.isInfix,
    fun s _ _ starts => starts.within, ?_, ?_⟩
  · intro s p rest _ t
    have edge : ∀ t, ('(' :: t).head?.any isWord = false :=
      fun _ => (by decide : isWord '(' = false)
    rw [whole_append]
    refine ⟨head?_word_append (by decide) printf_letters _, ?_⟩
    rw [tokens_word_append (by decide) printf_letters (edge _), TokenPattern.going,
      List.takeWhile_cons_of_neg (ne_true_of_eq_false cut.printf.2)]
  · intro lexeme p rest t scanned same _ within
    obtain ⟨whole, shared, prints⟩ := scan_speedFormat scanned
    obtain rfl := List.append_cancel_right shared
    refine (cut.within_of_whole prints within).imp_right ?_
    intro has
    rw [same]
    exact has.mono (List.prefix_append _ _).isInfix

-----------------------------------------------------------------------------------------
-- The whole template
-----------------------------------------------------------------------------------------

theorem cut_speeds : Cut speeds.definition := by
  refine ⟨?_, ⟨by decide, by decide⟩, ?_⟩
  · have outer : ['(', '"', '%', ',', ')'].all (fun c => !speeds.inner [c]) = true := by decide
    intro c member
    exact Bool.not_eq_eq_eq_not.mp (List.all_eq_true.mp outer c member)
  · intro rest same
    exact absurd (List.cons.inj same).1 (by decide)

/-- Narrowing a kind leaves none of its definitions. -/
theorem not_within_narrow (kind : TypeKind) (text : List Char)
    : ¬ kind.definition.Within (tokens (narrow kind.idiom text)) := by
  intro within
  exact (hides_byteTypedef kind kind).not_within text
    (within_of_renameAliases (fun name member => alias_of_findAll member) within)

/-- Narrowing a kind brings no definition of another one. -/
theorem within_of_narrow {kind other : TypeKind}
    (within : other.definition.Within (tokens (narrow kind.idiom text)))
    : other.definition.Within (tokens text) :=
  ((hides_byteTypedef kind other).traces.source_of_replace
    (within_of_renameAliases (fun _ member => alias_of_findAll member) within)).has

theorem narrow_of_not_within {kind : TypeKind} (absent : ¬ kind.definition.Within (tokens text))
    : narrow kind.idiom text = text := by
  simp only [narrow, findAll_of_not_within absent, replace_of_not_within absent,
    renameAliases_nil]

theorem not_within_narrowSpeeds (text : List Char)
    : ¬ speeds.definition.Within (tokens (narrowSpeeds text)) := by
  intro within
  simp only [narrowSpeeds, speedTypedef_eq] at within
  split at within
  · exact not_within_narrow speeds text (cut_speeds.traces.source_of_replace within)
  · exact not_within_narrow speeds text within

theorem narrowSpeeds_of_not_within (absent : ¬ speeds.definition.Within (tokens text))
    : narrowSpeeds text = text := by
  rw [narrowSpeeds, speedTypedef_eq, narrow_of_not_within absent, occursIn_idiom_eq_false absent]
  rfl

/-- On the rewrite of a text the template does nothing. -/
theorem rewrite_again (settings : Settings) (facts : Facts) (text : List Char)
    : rewrite settings facts (rewrite settings facts text) = rewrite settings facts text := by
  simp only [rewrite, satellitesTypedef_eq]
  generalize narrowedSpeeds : (if fits settings facts Facts.speed then narrowSpeeds text else text)
    = middle
  have no_speeds : fits settings facts Facts.speed = true
      → ¬ speeds.definition.Within (tokens middle) := by
    intro fit
    rw [if_pos fit] at narrowedSpeeds
    exact narrowedSpeeds ▸ not_within_narrowSpeeds text
  cases speedsFit : fits settings facts Facts.speed with
  | false =>
      cases satellitesFit : fits settings facts Facts.satellites with
      | false => rfl
      | true => exact narrow_of_not_within (not_within_narrow satellites middle)
  | true =>
      have speedless := no_speeds speedsFit
      cases satellitesFit : fits settings facts Facts.satellites with
      | false => exact narrowSpeeds_of_not_within speedless
      | true =>
          simp only [if_true]
          rw [narrowSpeeds_of_not_within fun within => speedless (within_of_narrow within),
            narrow_of_not_within (not_within_narrow satellites middle)]

end CompressStorage

end RangeTuner.Rewrite
