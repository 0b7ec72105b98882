import RangeTuner.Proofs.Rewrite.StorageTokens

/-! The passes of compressed storage, each for itself. Narrowing the types of a kind changes the
tokens of a text as the relation between a text and its rewrite says, with the captured names, and
so does repairing formats, with none. Main statement: the whole template does, with the names that
its passes capture.
-/

namespace RangeTuner.Rewrite

open RangeTuner.Text RangeTuner.Spec TypeKind

namespace CompressStorage

variable {kind : TypeKind} {name s t gap gap' : List Char} {names : List (List Char)}
  {last : SpacedToken} {ts us : List SpacedToken}

-----------------------------------------------------------------------------------------
-- Narrowed types
-----------------------------------------------------------------------------------------

theorem spacing_byteNote_append (behind : spacing s = ⟨[], last :: ts⟩)
    : spacing (byteNote ++ s)
      = ⟨"  ".toList, ⟨['/'], []⟩ :: ⟨['/'], [' ']⟩ :: ⟨"rangeopt".toList, []⟩ :: ⟨[':'], [' ']⟩
        :: ⟨"0".toList, []⟩ :: ⟨['-'], []⟩ :: ⟨"255".toList, [' ']⟩ :: last :: ts⟩ := by
  rw [spacing, List.foldr_append, ← spacing, behind]
  rfl

/-- A narrowed definition and its note, up to the last word of the note. -/
theorem exists_spacing_byteTypedef (known : kind.Alias name)
    (behind : spacing (noteWord ++ s) = ⟨[], last :: ts⟩)
    : ∃ new : List SpacedToken, new.map SpacedToken.token = notedTokens (optimizedAlias name)
      ∧ spacing (byteTypedef name ++ s) = ⟨[], new ++ last :: ts⟩ := by
  have new := known.optimized
  have edge : (';' :: (byteNote ++ (noteWord ++ s))).head?.any isWord = false :=
    (by decide : isWord ';' = false)
  refine ⟨⟨opener, [' ']⟩ :: ⟨"unsigned".toList, [' ']⟩ :: ⟨"char".toList, [' ']⟩
    :: ⟨optimizedAlias name, []⟩ :: ⟨[';'], "  ".toList⟩ :: ⟨['/'], []⟩ :: ⟨['/'], [' ']⟩
    :: ⟨"rangeopt".toList, []⟩ :: ⟨[':'], [' ']⟩ :: ⟨"0".toList, []⟩ :: ⟨['-'], []⟩
    :: [⟨"255".toList, [' ']⟩], rfl, ?_⟩
  have words : byteTypedef name
      = opener ++ ' ' :: ("unsigned".toList ++ ' ' :: ("char".toList ++ ' '
        :: (optimizedAlias name ++ ';' :: (byteNote ++ noteWord)))) :=
    byteTypedef_eq name
  simp only [words, List.append_assoc, List.cons_append]
  rw [spacing_word_space opener_ne_nil opener_letters,
    spacing_word_space (by decide) unsigned_letters, spacing_word_space (by decide) char_letters,
    spacing_word_append new.ne_nil new.letters edge, spacing_cons_of_sign (by decide) (by decide),
    spacing_byteNote_append behind]
  rfl

theorem noteWord_letters : ∀ c ∈ noteWord, isWord c = true :=
  List.all_eq_true.mp (by decide)

theorem definedNames_cons_subset (kind : TypeKind) (token : List Char) (tokens : List (List Char))
    : kind.definedNames tokens ⊆ kind.definedNames (token :: tokens) := by
  rw [definedNames]
  split
  · exact List.subset_cons_self _ _
  · exact List.Subset.refl _

theorem map_noted {new : List SpacedToken} (names : List (List Char))
    (noted : new.map SpacedToken.token = notedTokens (optimizedAlias name))
    : (new.map (.map (narrowedToken names))).map SpacedToken.token
      = notedTokens (optimizedAlias name) := by
  have fixed := narrowedToken_noted names name
  rw [← noted, List.forall_mem_map] at fixed
  rw [List.map_map, ← noted]
  exact List.map_congr_left fixed

/-- A definition is narrowed, and the note behind it takes in a word that stands there. -/
theorem follows_byteTypedef {words : List SpacedToken} (known : kind.Alias name)
    (defines : kind.Defines name (words.map SpacedToken.token ++ [[';']])) (captured : name ∈ names)
    (edge : t.head?.any isWord = s.head?.any isWord)
    (follows : Follows names (spacing s).spaced
      ((spacing t).spaced.map (.map (narrowedToken names))))
    : Follows names (words ++ ⟨[';'], (spacing s).lead⟩ :: (spacing s).spaced)
        ((spacing (byteTypedef name ++ t)).spaced.map (.map (narrowedToken names))) := by
  cases joins : t.head?.any isWord with
  | false =>
      have note : spacing (noteWord ++ t)
          = ⟨[], ⟨noteWord, (spacing t).lead⟩ :: (spacing t).spaced⟩ :=
        spacing_word_append (by decide) noteWord_letters joins
      obtain ⟨new, noted, made⟩ := exists_spacing_byteTypedef known note
      have last : narrowedToken names noteWord = noteWord := narrowedToken_of_head (by decide)
      rw [made, List.map_append, List.map_cons, SpacedToken.map, last]
      refine .narrowed defines captured (map_noted names noted) ?_ follows
      rw [joins, head?_eq_startsWord] at edge
      simpa [or_iff_not_imp_left] using edge.symm
  | true =>
      rw [joins] at edge
      obtain ⟨word, rest, rfl, filled, letters, ended⟩ := exists_word_append joins
      have grown : ∀ c ∈ noteWord ++ word, isWord c = true :=
        List.forall_mem_append.mpr ⟨noteWord_letters, letters⟩
      have note : spacing (noteWord ++ (word ++ rest))
          = ⟨[], ⟨noteWord ++ word, (spacing rest).lead⟩ :: (spacing rest).spaced⟩ := by
        rw [← List.append_assoc]
        exact spacing_word_append (by simp [filled]) grown ended
      obtain ⟨new, noted, made⟩ := exists_spacing_byteTypedef known note
      have last : narrowedToken names (noteWord ++ word) = noteWord ++ word :=
        narrowedToken_of_head (by decide : some 's' ≠ some 'g')
      have near : (spacing s).lead = [] := by
        rw [head?_eq_startsWord] at edge
        exact List.isEmpty_iff.mp (Bool.and_eq_true_iff.mp edge.symm).1
      rw [spacing_word_append filled letters ended, List.map_cons] at follows
      rw [made, List.map_append, List.map_cons, SpacedToken.map, last, near]
      refine .taken defines captured (map_noted names noted) ?_ follows
      rw [SpacedToken.map, head?_narrowedToken_isWord]
      exact head?_word filled letters

/-- Narrowing a kind renames the names that it captures, and puts a note behind each definition. -/
theorem follows_narrow (kind : TypeKind) (text : List Char)
    : Follows (kind.idiom.findAll text) (spacing text).spaced
        (spacing (narrow kind.idiom text)).spaced := by
  have known : ∀ name ∈ kind.idiom.findAll text, kind.Alias name := fun _ => alias_of_findAll
  rw [narrow, spacing_renameAliases known]
  generalize captured : kind.idiom.findAll text = names at known ⊢
  have replaced := (wordBound kind).spacing_replace byteTypedef
    (fun ts us => kind.definedNames (ts.map SpacedToken.token) ⊆ names
      → Follows names ts (us.map (.map (narrowedToken names)))) ?_ (fun _ => .nil) ?_ ?_ text
  · refine replaced.2 ?_
    rw [findAll_eq_definedNames, ← tokens_spacing] at captured
    exact captured ▸ List.Subset.refl _
  · intro name _ _ _
    rw [byteTypedef_eq]
    exact head?_word_append opener_ne_nil opener_letters _
  · intro token s us _ _ behind within
    refine .kept (fun _ => rfl) (behind fun _ member => within ?_)
    exact definedNames_cons_subset kind _ _ member
  · intro name lexeme s t scanned edge _ behind within
    obtain ⟨words, defines, cut⟩ := spacing_of_scan scanned
    have source : (spacing (lexeme ++ s)).spaced.map SpacedToken.token
        = (words.map SpacedToken.token ++ [[';']]) ++ (spacing s).spaced.map SpacedToken.token := by
      simp [cut s]
    rw [source, defines.definedNames_append, List.cons_subset] at within
    rw [cut s]
    exact follows_byteTypedef (alias_of_scan scanned) defines within.1 edge (behind within.2)

-----------------------------------------------------------------------------------------
-- Repaired formats
-----------------------------------------------------------------------------------------

/-- One text follows another, token by token, without renamed words. -/
def FollowsText (s t : List Char) : Prop :=
  Follows [] (spacing s).spaced (spacing t).spaced

namespace FollowsText

/-- Blanks in front do not matter. -/
theorem blanks (follows : FollowsText s t) (blank : ∀ c ∈ gap, isBlank c = true)
    (blank' : ∀ c ∈ gap', isBlank c = true)
    : FollowsText (gap ++ s) (gap' ++ t) := by
  rw [FollowsText, spacing_blanks_append blank, spacing_blanks_append blank']
  exact follows

theorem token {token : List Char} (follows : FollowsText s t) (first : IsToken token s)
    (first' : IsToken token t) (other : token ≠ [';'])
    : FollowsText (token ++ s) (token ++ t) := by
  rw [FollowsText, spacing_token_append first, spacing_token_append first']
  have same : Follows [] (⟨token, (spacing s).lead⟩ :: (spacing s).spaced)
      (⟨narrowedToken [] token, (spacing t).lead⟩ :: (spacing t).spaced) :=
    .kept (fun closes => absurd closes other) follows
  rwa [narrowedToken_nil] at same

/-- A sign in front of both, which is no semicolon. -/
theorem sign {c : Char} (follows : FollowsText s t) (outside : isWord c = false)
    (visible : isBlank c = false) (other : c ≠ ';')
    : FollowsText (c :: s) (c :: t) := by
  have first : ∀ rest, IsToken [c] rest := fun _ => .sign outside visible
  exact follows.token (first s) (first t) fun closes => other (List.cons.inj closes).1

/-- A text in front that both go on behind at the edge of a word, by induction on it. -/
theorem append (follows : FollowsText s t) (edge : s.head?.any isWord = false)
    (edge' : t.head?.any isWord = false) {front : List Char} (unclosed : ';' ∉ front)
    : FollowsText (front ++ s) (front ++ t) := by
  induction front using tokens_induction with
  | nil => exact follows
  | blank c front blank ih =>
      have all : ∀ d ∈ [c], isBlank d = true := by simpa using blank
      exact (ih (fun member => unclosed (List.mem_cons_of_mem c member))).blanks all all
  | sign c front outside visible ih =>
      refine (ih fun member => unclosed (List.mem_cons_of_mem c member)).sign outside visible ?_
      rintro rfl
      exact unclosed List.mem_cons_self
  | word word front filled all ended ih =>
      have ends : ∀ {rest : List Char}, rest.head?.any isWord = false
          → (front ++ rest).head?.any isWord = false := by
        intro rest edge
        cases front with
        | nil => exact edge
        | cons c front => exact ended
      rw [List.append_assoc, List.append_assoc]
      refine (ih fun member => unclosed (List.mem_append_right word member)).token
        (.word filled all (ends edge)) (.word filled all (ends edge')) ?_
      rintro rfl
      exact absurd (all ';' (by simp)) (by decide)

end FollowsText

theorem Follows.append_left (front : List SpacedToken) (follows : Follows [] ts us)
    : Follows [] (front ++ ts) (front ++ us) := by
  induction front with
  | nil => exact follows
  | cons t front ih =>
      have same : Follows [] (t :: (front ++ ts))
          (⟨narrowedToken [] t.token, t.gap⟩ :: (front ++ us)) :=
        .kept (fun _ => rfl) ih
      rwa [narrowedToken_nil] at same

/-- A text in front of the same sign. -/
theorem FollowsText.before_sign {c : Char} (outside : isWord c = false)
    (visible : isBlank c = false) (follows : FollowsText (c :: s) (c :: t)) (front : List Char)
    : FollowsText (front ++ c :: s) (front ++ c :: t) := by
  obtain ⟨lead, ts, cut⟩ := exists_spacing_sign outside visible front
  rw [FollowsText, spacing_cons_of_sign outside visible, spacing_cons_of_sign outside visible]
    at follows
  rw [FollowsText, cut s, cut t]
  exact follows.append_left ts

/-- What stands before a word and does not end in one is made of tokens of its own. -/
theorem exists_spacing_append {front : List Char} (apart : front.getLast?.any isWord = false)
    (s : List Char)
    : ∃ lead ts, spacing (front ++ s) = ⟨lead, ts ++ (spacing s).spaced⟩
      ∧ ∀ t ∈ ts, ∀ c ∈ t.token, c ∈ front := by
  induction front using tokens_induction with
  | nil => exact ⟨_, [], rfl, by simp⟩
  | blank c front blank ih =>
      have apart' : ([c] ++ front).getLast?.any isWord = false := apart
      obtain ⟨lead, ts, cut, inside⟩ := ih (apart_of_append apart')
      rw [List.cons_append, spacing_cons_of_isBlank blank, cut]
      exact ⟨c :: lead, ts, rfl,
        fun t among d member => List.mem_cons_of_mem c (inside t among d member)⟩
  | sign c front outside visible ih =>
      have apart' : ([c] ++ front).getLast?.any isWord = false := apart
      obtain ⟨lead, ts, cut, inside⟩ := ih (apart_of_append apart')
      rw [List.cons_append, spacing_cons_of_sign outside visible, cut]
      refine ⟨[], ⟨[c], lead⟩ :: ts, rfl, ?_⟩
      rw [List.forall_mem_cons]
      exact ⟨by simp, fun t among d member => List.mem_cons_of_mem c (inside t among d member)⟩
  | word word front filled all ended ih =>
      have more : front ≠ [] := by
        rintro rfl
        rw [List.append_nil, List.getLast?_eq_some_getLast filled] at apart
        exact absurd (all _ (List.getLast_mem filled)) (by simpa using apart)
      obtain ⟨d, rest, rfl⟩ := List.exists_cons_of_ne_nil more
      obtain ⟨lead, ts, cut, inside⟩ := ih (apart_of_append apart)
      rw [List.append_assoc, spacing_word_append filled all (by simpa using ended), cut]
      refine ⟨[], ⟨word, lead⟩ :: ts, rfl, ?_⟩
      rw [List.forall_mem_cons]
      exact ⟨fun c member => List.mem_append_left _ member,
        fun t among c member => List.mem_append_right word (inside t among c member)⟩

theorem exists_append_word (s : List Char)
    : ∃ front word, s = front ++ word ∧ (∀ c ∈ word, isWord c = true)
      ∧ front.getLast?.any isWord = false := by
  refine ⟨(s.reverse.dropWhile isWord).reverse, (s.reverse.takeWhile isWord).reverse, ?_,
    fun c member => takeWhile_isWord_letters (List.mem_reverse.mp member), ?_⟩
  · rw [← List.reverse_append, List.takeWhile_append_dropWhile, List.reverse_reverse]
  · rw [List.getLast?_reverse]
    exact head?_dropWhile_isWord _

/-- A directive for whole numbers follows one for decimals. -/
theorem FollowsText.directive {directive word : List Char} (decimal : IsDecimal directive)
    (follows : FollowsText s t) (letters : ∀ c ∈ word, isWord c = true)
    (ended : s.head?.any isWord = false) (ended' : t.head?.any isWord = false)
    : FollowsText ('%' :: (directive ++ (word ++ s))) ('%' :: 'd' :: (word ++ t)) := by
  obtain ⟨start, letter, rfl, signs, member⟩ := decimal
  obtain ⟨front, digits, rfl, all, apart⟩ := exists_append_word start
  rw [List.forall_mem_append] at signs
  have letter_word : ∀ c ∈ ['f', 'F'], isWord c = true := List.all_eq_true.mp (by decide)
  have grown : ∀ c ∈ digits ++ letter :: word, isWord c = true :=
    List.forall_mem_append.mpr
      ⟨all, List.forall_mem_cons.mpr ⟨letter_word letter member, letters⟩⟩
  have whole : ∀ c ∈ 'd' :: word, isWord c = true :=
    List.forall_mem_cons.mpr ⟨by decide, letters⟩
  obtain ⟨lead, ts, cut, inside⟩ :=
    exists_spacing_append apart ((digits ++ letter :: word) ++ s)
  rw [spacing_word_append (by simp) grown ended] at cut
  have source : (front ++ digits ++ [letter]) ++ (word ++ s)
      = front ++ ((digits ++ letter :: word) ++ s) := by
    simp
  have target : spacing ('d' :: (word ++ t))
      = ⟨[], ⟨'d' :: word, (spacing t).lead⟩ :: (spacing t).spaced⟩ :=
    spacing_word_append (by simp) whole ended'
  rw [FollowsText, source, spacing_cons_of_sign (by decide) (by decide), cut,
    spacing_cons_of_sign (by decide) (by decide), target]
  have decimal : IsDirective ((ts ++ [SpacedToken.mk (digits ++ letter :: word)
      (spacing s).lead]).map SpacedToken.token) word := by
    refine ⟨ts.map SpacedToken.token, digits, letter, by simp, ?_, signs.2, member⟩
    rw [List.forall_mem_map]
    exact fun t among c within => signs.1 c (inside t among c within)
  rw [List.append_cons ts]
  exact .directive decimal follows

/-- A speed that is printed as a whole number follows one that is printed with decimals. -/
theorem FollowsText.whole {lexeme : List Char} {p : SpeedPrint} (prints : Prints lexeme p)
    (follows : FollowsText s t)
    : FollowsText (lexeme ++ s) (p.whole ++ t) := by
  obtain ⟨space, gap₁, gap₂, directive, gap₃, gap₄, blank, blank₁, blank₂, blank₃, blank₄, decimal,
    rfl⟩ := prints.shape
  have unclosed : ';' ∉ p.argument := by
    intro member
    exact absurd (prints.argument ';' member) (by decide)
  have none : ∀ d ∈ ([] : List Char), isBlank d = true := by simp
  have space' : ∀ d ∈ [' '], isBlank d = true := List.all_eq_true.mp (by decide)
  have outside : ∀ c ∈ ['(', ')', ',', '"'], isWord c = false := fun c member =>
    eq_false_of_ne_true (List.any_eq_false.mp (by decide) c member)
  -- from the end of the call to its start
  have closing := (follows.sign (outside ')' (by simp)) (by decide) (by decide)).blanks blank₄ none
  have argument := closing.append (head?_blanks_append blank₄ (outside ')' (by simp)))
    (outside ')' (by simp)) unclosed
  have comma := ((argument.blanks blank₃ space').sign (outside ',' (by simp)) (by decide)
    (by decide)).blanks blank₂ none
  have quote := comma.sign (outside '"' (by simp)) (by decide) (by decide)
  obtain ⟨word, after, same, letters, apart⟩ := exists_letters_append p.after
  have ended : ∀ s, (after ++ '"' :: s).head?.any isWord = false := by
    intro s
    cases after with
    | nil => exact outside '"' (by simp)
    | cons c after => exact apart
  have format := (quote.before_sign (by decide) (by decide) after).directive decimal letters
    (ended _) (ended _)
  have text := (format.before_sign (by decide) (by decide) p.before).sign (outside '"' (by simp))
    (by decide) (by decide)
  have call := ((text.blanks blank₁ none).sign (outside '(' (by simp)) (by decide)
    (by decide)).blanks blank none
  have first : ∀ {rest : List Char}, rest.head?.any isWord = false
      → IsToken "printf".toList rest := .word (by decide) printf_letters
  have printed := call.token (first (head?_blanks_append blank (outside '(' (by simp))))
    (first (outside '(' (by simp))) (by decide)
  rw [whole_append]
  simpa [same] using printed

/-- Repairing formats renames no word. -/
theorem follows_whole (text : List Char)
    : Follows [] (spacing text).spaced
        (spacing (speedFormat.replace SpeedPrint.whole text)).spaced := by
  have replaced := wordBound_speedFormat.spacing_replace SpeedPrint.whole (Follows [])
    ?_ .nil ?_ ?_ text
  · exact replaced.2
  · intro p _ _ _
    rw [← List.append_nil p.whole, whole_append]
    exact head?_word_append (by decide) printf_letters _
  · intro token s us _ _ behind
    exact behind.append_left [⟨token, (spacing s).lead⟩]
  · intro p lexeme s t scanned _ _ behind
    obtain ⟨read, shared, prints⟩ := scan_speedFormat scanned
    obtain rfl := List.append_cancel_right shared
    exact FollowsText.whole prints behind

-----------------------------------------------------------------------------------------
-- The whole template
-----------------------------------------------------------------------------------------

/-- The text with speeds narrowed, where they fit. -/
def speedsNarrowed (settings : Settings) (facts : Facts) (text : List Char) : List Char :=
  if fits settings facts Facts.speed then narrowSpeeds text else text

/-- The names that the template captures: of speeds in the text, and of numbers of satellites in
the text with speeds narrowed.
-/
def capturedNames (settings : Settings) (facts : Facts) (text : List Char) : List (List Char) :=
  (if fits settings facts Facts.speed then speedTypedef.findAll text else [])
    ++ if fits settings facts Facts.satellites then
        satellitesTypedef.findAll (speedsNarrowed settings facts text)
      else []

theorem Follows.refl (ts : List SpacedToken) : Follows [] ts ts := by
  simpa using Follows.append_left ts .nil

theorem follows_narrowSpeeds (text : List Char)
    : Follows (speedTypedef.findAll text) (spacing text).spaced
        (spacing (narrowSpeeds text)).spaced := by
  have narrowed := follows_narrow speeds text
  rw [← speedTypedef_eq] at narrowed
  unfold narrowSpeeds
  split
  · have repaired := narrowed.trans (by simp) (follows_whole (narrow speedTypedef text))
    rwa [List.append_nil] at repaired
  · exact narrowed

/-- Main statement: token by token, the rewrite of a text follows the text, with the names that the
template captures.
-/
theorem follows_rewrite (settings : Settings) (facts : Facts) (text : List Char)
    : Follows (capturedNames settings facts text) (spacing text).spaced
        (spacing (rewrite settings facts text)).spaced := by
  have first : Follows (if fits settings facts Facts.speed then speedTypedef.findAll text else [])
      (spacing text).spaced (spacing (speedsNarrowed settings facts text)).spaced := by
    unfold speedsNarrowed
    split
    · exact follows_narrowSpeeds text
    · exact Follows.refl _
  have second : Follows (if fits settings facts Facts.satellites then
        satellitesTypedef.findAll (speedsNarrowed settings facts text) else [])
      (spacing (speedsNarrowed settings facts text)).spaced
      (spacing (rewrite settings facts text)).spaced := by
    change Follows _ _ (spacing (if fits settings facts Facts.satellites then
      narrow satellitesTypedef (speedsNarrowed settings facts text)
      else speedsNarrowed settings facts text)).spaced
    split
    · rw [satellitesTypedef_eq]
      exact follows_narrow satellites _
    · exact Follows.refl _
  refine first.trans ?_ second
  -- no name of a speed is renamed to one of a number of satellites
  intro name member captured
  have speed : speeds.named (optimizedAlias name) = true := by
    split at member
    · rw [speedTypedef_eq] at member
      exact (alias_of_findAll member).optimized.named
    · cases member
  split at captured
  · rw [satellitesTypedef_eq] at captured
    have both := (alias_of_findAll captured).named
    rw [speeds_apart_satellites _ speed] at both
    cases both
  · cases captured

end CompressStorage

end RangeTuner.Rewrite
