import RangeTuner.Proofs.Decimal.Notation
import RangeTuner.Proofs.Rewrite.PlanarShape
import RangeTuner.Proofs.Rewrite.Untouched
import RangeTuner.Proofs.Text.LineOccurrence
import RangeTuner.Proofs.Text.Trimming
import RangeTuner.Provenance

/-! No template brings the title line of a header into a text. What a template writes holds, on each
line that it breaks or adds, a character that the title does not have, or repeats what it read.
-/

namespace RangeTuner.Rewrite

open RangeTuner.Decimal RangeTuner.Text RangeTuner.Spec

/-- The title line of a header. -/
def titleLine : List Char :=
  Provenance.title.toList

theorem titleLine_unbroken : '\n' ∉ titleLine := by decide

/-- A part on one line brings no title in if it holds a character that the title does not have. -/
theorem bringsNoTitle {new : List Char} {c : Char} (member : c ∈ new)
    (foreign : c ∉ fenced titleLine) (whole : '\n' ∉ new) (old : List Char)
    : BringsNoLine titleLine new old :=
  .of_foreign titleLine_unbroken foreign member whole

/-- Replacing hits brings no title in if no replacement does. -/
theorem replace_bringsNoTitle {α : Type} {idiom : Idiom α} {new : α → List Char}
    {text : List Char}
    (each : ∀ found lexeme, .hit found lexeme ∈ idiom.pieces text
      → BringsNoLine titleLine (new found) lexeme)
    : BringsNoLine titleLine (idiom.replace new text) text := by
  have pieces : ∀ piece ∈ idiom.pieces text,
      BringsNoLine titleLine (Piece.replaced new piece) piece.text := by
    intro piece member
    cases piece with
    | plain c => exact .refl _ _
    | hit found lexeme => exact each found lexeme member
  have whole := BringsNoLine.flatMap pieces
  rwa [Idiom.pieces_text, ← Idiom.replace_eq_replaced] at whole

-----------------------------------------------------------------------------------------
-- Guards
-----------------------------------------------------------------------------------------

theorem replaceAll_bringsNoTitle (idioms : List (Idiom Unit)) {comment : List Char}
    (slash : '/' ∈ comment) (whole : '\n' ∉ comment) (text : List Char)
    : BringsNoLine titleLine (replaceAll idioms comment text) text := by
  unfold replaceAll
  induction idioms generalizing text with
  | nil => exact .refl _ _
  | cons idiom idioms ih =>
      exact (ih _).trans (replace_bringsNoTitle fun _ lexeme _ =>
        bringsNoTitle slash (by decide) whole lexeme)

-----------------------------------------------------------------------------------------
-- Names
-----------------------------------------------------------------------------------------

theorem no_feed_of_words {word : List Char} (words : ∀ c ∈ word, isWord c = true)
    : '\n' ∉ word :=
  fun member => by simpa [show isWord '\n' = false from by decide] using words _ member

/-- The narrowed form of a name stays on its line. -/
theorem no_feed_optimizedAlias {name : List Char} (whole : '\n' ∉ name)
    : '\n' ∉ optimizedAlias name := by
  unfold optimizedAlias
  split
  next rest generic =>
    rw [after?_eq_some_iff.mp generic] at whole
    simp only [List.mem_append, not_or] at whole ⊢
    exact ⟨by decide, whole.2⟩
  next => exact whole

theorem rename_bringsNoTitle (name text : List Char)
    : BringsNoLine titleLine (rename name (optimizedAlias name) text) text := by
  cases generic : after? "generic_".toList name with
  | none => rw [optimizedAlias_of_not_generic generic, rename_self]; exact .refl _ _
  | some rest =>
      refine replace_bringsNoTitle fun found lexeme member => ?_
      obtain rfl : name = lexeme :=
        Idiom.forall_hits (fun t _ rest scanned => ⟨name, scan_wholeWord scanned, rfl⟩) member
      rw [optimizedAlias, generic]
      have first : BringsNoLine titleLine "optimized_".toList "generic_".toList :=
        bringsNoTitle (by decide : 'm' ∈ "optimized_".toList) (by decide) (by decide) _
      rw [after?_eq_some_iff.mp generic]
      exact first.append (.refl _ _)

theorem renameAliases_bringsNoTitle (names : List (List Char)) (text : List Char)
    : BringsNoLine titleLine (renameAliases names text) text := by
  unfold renameAliases
  induction names generalizing text with
  | nil => exact .refl _ _
  | cons name names ih => exact (ih _).trans (rename_bringsNoTitle name text)

-----------------------------------------------------------------------------------------
-- Coordinates
-----------------------------------------------------------------------------------------

theorem finds_word : Scanner.word.Finds fun found => '\n' ∉ found :=
  fun _ _ _ h =>
    no_feed_of_words (Scanner.run_eq_some_iff.mp (Scanner.run1_eq_some_iff.mp h).2).2.1

namespace NarrowCoordinates

theorem finds_aliasTypedef : aliasTypedef.scan.Finds fun name => '\n' ∉ name :=
  .after fun _ => .after fun _ => .after fun _ => .after fun _ =>
    finds_word.bind fun _ whole => .after fun _ => .after fun _ => .after fun _ => .pure whole

/-- A declaration is read as its type, the gap and the name. -/
theorem reads_coordinateDeclaration
    : coordinateDeclaration.scan.Reads fun found read =>
        read = "double".toList ++ (found.1 ++ found.2) := by
  refine (Scanner.Reads.literal "double").bind fun _ _ typed => ?_
  refine (Scanner.Reads.run1 isBlank).bind fun gap _ ⟨apart, _⟩ => ?_
  refine (Scanner.Reads.run1 isWord).bind fun name _ ⟨named, _⟩ => ?_
  refine (Scanner.Reads.guard _).bind fun _ _ ⟨_, nothing⟩ => ?_
  refine .pure ?_
  simp [typed, apart, named, nothing]

theorem narrowedTypedef_bringsNoTitle {name : List Char} (unbroken : '\n' ∉ name)
    (old : List Char)
    : BringsNoLine titleLine (narrowedTypedef name) old := by
  have float : 'f' ∈ "typedef float ".toList := by decide +kernel
  unfold narrowedTypedef
  rw [List.append_assoc]
  refine bringsNoTitle (List.mem_append_left _ float) (by decide) ?_ old
  exact List.not_mem_append (by decide +kernel)
    (List.not_mem_append (no_feed_optimizedAlias unbroken) (by decide))

theorem rewrite_bringsNoTitle (text : List Char)
    : BringsNoLine titleLine (rewrite text) text := by
  refine BringsNoLine.trans (replace_bringsNoTitle fun found lexeme member => ?_)
    ((renameAliases_bringsNoTitle _ _).trans (replace_bringsNoTitle fun name lexeme member => ?_))
  · rw [Idiom.forall_hits reads_coordinateDeclaration member]
    show BringsNoLine titleLine ("float".toList ++ found.1 ++ found.2) _
    rw [List.append_assoc]
    exact (bringsNoTitle (by decide : 'f' ∈ "float".toList) (by decide) (by decide) _).append
      (.refl _ _)
  · exact narrowedTypedef_bringsNoTitle
      (Idiom.forall_found finds_aliasTypedef member) lexeme

end NarrowCoordinates

-----------------------------------------------------------------------------------------
-- Storage
-----------------------------------------------------------------------------------------

namespace CompressStorage

theorem finds_typedefName (finish : String)
    : (typedefName finish).Finds fun name => '\n' ∉ name :=
  .after fun _ => finds_word.bind fun _ whole =>
    .after fun _ => .after fun _ => .after fun _ => .pure whole

theorem narrow_bringsNoTitle {typedef : Idiom (List Char)}
    (finds : typedef.scan.Finds fun name => '\n' ∉ name) (text : List Char)
    : BringsNoLine titleLine (narrow typedef text) text := by
  refine (renameAliases_bringsNoTitle _ _).trans
    (replace_bringsNoTitle fun name lexeme member => ?_)
  have typedef : 'y' ∈ "typedef unsigned char ".toList := by decide +kernel
  have unbroken := no_feed_optimizedAlias (Idiom.forall_found finds member)
  unfold byteTypedef
  rw [List.append_assoc]
  refine bringsNoTitle (List.mem_append_left _ typedef) (by decide) ?_ lexeme
  exact List.not_mem_append (by decide +kernel)
    (List.not_mem_append unbroken (by decide +kernel))

theorem decimalDirective_reads : decimalDirective.ReadsOnly fun _ => True := by
  have run : ∀ p, (Scanner.run p).ReadsOnly fun _ => True := fun p => .run (by simp)
  have digits : (Scanner.run1 isDigit).ReadsOnly fun _ => True := .run1 (by simp)
  have point : (Scanner.literal ".").ReadsOnly fun _ => True := .literal (by simp)
  exact (run _).bind fun _ => (run _).bind fun _ =>
    (Scanner.ReadsOnly.possibly (point.bind fun _ => digits.bind fun _ => .pure _)).bind
      fun _ => (Scanner.ReadsOnly.one (by simp)).bind fun _ => .pure _

/-- A printed speed is read as its parts, with something around each of them. -/
theorem reads_speedFormat
    : speedFormat.scan.Reads fun p read =>
        (∃ start directive finish,
          read = start ++ (p.before ++ (directive ++ (p.after ++ finish))))
        ∧ '\n' ∉ p.argument := by
  have spaced : ∀ text, (Scanner.spaced text).ReadsOnly fun _ => True :=
    fun text => .spaced (by simp) (by simp)
  have blanks : Scanner.blanks.ReadsOnly fun _ => True := .blanks (by simp)
  refine (Scanner.Reads.literal "printf").bind fun _ r₁ _ => ?_
  refine Scanner.Reads.bind (spaced "(") fun _ r₂ _ => ?_
  refine (Scanner.Reads.literal "\"").bind fun _ r₃ _ => ?_
  refine (Scanner.Reads.run _).bind fun before _ ⟨same₁, _⟩ => ?_
  refine (Scanner.Reads.literal "%").bind fun _ r₄ _ => ?_
  refine Scanner.Reads.bind decimalDirective_reads fun _ r₅ _ => ?_
  refine Scanner.Reads.bind (Scanner.Reads.upTo '"') fun after _ same₂ => ?_
  refine (Scanner.Reads.guard _).bind fun _ r₆ _ => ?_
  refine Scanner.Reads.bind (spaced ",") fun _ r₇ _ => ?_
  refine (Scanner.Reads.run _).bind fun argument r₈ ⟨_, parts⟩ => ?_
  refine (Scanner.Reads.guard _).bind fun _ r₉ _ => ?_
  refine Scanner.Reads.bind blanks fun _ r₁₀ _ => ?_
  refine (Scanner.Reads.literal ")").bind fun _ r₁₁ _ => .pure ⟨?_, ?_⟩
  · refine ⟨r₁ ++ (r₂ ++ r₃), r₄ ++ r₅, '"' :: (r₆ ++ (r₇ ++ (r₈ ++ (r₉ ++ (r₁₀ ++ r₁₁))))), ?_⟩
    simp [same₁, same₂]
  · intro feed
    simpa [show isWord '\n' = false from by decide] using parts _ feed

theorem whole_bringsNoTitle {p : SpeedPrint} (unbroken : '\n' ∉ p.argument)
    (start directive finish : List Char)
    : BringsNoLine titleLine p.whole
        (start ++ (p.before ++ (directive ++ (p.after ++ finish)))) := by
  have parts : p.whole
      = "printf(\"".toList ++ (p.before ++ ("%d".toList ++ (p.after
          ++ ("\", ".toList ++ (p.argument ++ [')']))))) := by
    unfold SpeedPrint.whole
    repeat rw [List.append_assoc]
  rw [parts]
  refine .append (bringsNoTitle (by decide : '(' ∈ "printf(\"".toList) (by decide) (by decide) _)
    (.append (.refl _ _) (.append ?_ (.append (.refl _ _) ?_)))
  · exact bringsNoTitle (by decide : '%' ∈ "%d".toList) (by decide) (by decide) _
  · refine bringsNoTitle (List.mem_append_left _ (by decide : '"' ∈ "\", ".toList)) (by decide)
      ?_ _
    exact List.not_mem_append (by decide) (List.not_mem_append unbroken (by decide))

theorem narrowSpeeds_bringsNoTitle (text : List Char)
    : BringsNoLine titleLine (narrowSpeeds text) text := by
  have narrowed : BringsNoLine titleLine (narrow speedTypedef text) text :=
    narrow_bringsNoTitle (.after fun _ => .after fun _ => .after fun _ =>
      finds_typedefName "speed") text
  unfold narrowSpeeds
  split
  · refine BringsNoLine.trans (replace_bringsNoTitle fun p lexeme member => ?_) narrowed
    obtain ⟨⟨start, directive, finish, rfl⟩, unbroken⟩ :=
      Idiom.forall_hits reads_speedFormat member
    exact whole_bringsNoTitle unbroken start directive finish
  · exact narrowed

theorem rewrite_bringsNoTitle (settings : Settings) (facts : Facts) (text : List Char)
    : BringsNoLine titleLine (rewrite settings facts text) text := by
  have satellites : ∀ text, BringsNoLine titleLine (narrow satellitesTypedef text) text :=
    narrow_bringsNoTitle (.after fun _ => .after fun _ => .after fun _ => .after fun _ =>
      finds_typedefName "satellites")
  have after : ∀ done, BringsNoLine titleLine done text
      → BringsNoLine titleLine
        (if fits settings facts Facts.satellites then narrow satellitesTypedef done else done)
        text := by
    intro done speeds
    split
    · exact (satellites done).trans speeds
    · exact speeds
  refine after _ ?_
  split
  · exact narrowSpeeds_bringsNoTitle text
  · exact .refl _ _

end CompressStorage

-----------------------------------------------------------------------------------------
-- Distances
-----------------------------------------------------------------------------------------

/-- Lines have no line feeds, by induction on the text. -/
theorem no_feed_of_mem_lines {s l : List Char} (member : l ∈ lines s)
    : '\n' ∉ l := by
  suffices general : ∀ line, '\n' ∉ line → ∀ l ∈ linesFrom line s, '\n' ∉ l by
    exact general [] List.not_mem_nil l member
  clear member
  intro line whole
  fun_induction linesFrom line s with
  | case1 line empty => simp
  | case2 line filled => simpa using whole
  | case3 line rest ih =>
      refine List.forall_mem_cons.mpr ⟨?_, ih List.not_mem_nil⟩
      split
      next start => simpa using whole
      next => simpa using whole
  | case4 line c rest other ih =>
      exact ih (List.not_mem_cons_of_ne_of_not_mem (Ne.symm other) whole)

namespace PlanarDistance

/-- The line holds a character that the title does not have, and no line feed. -/
def Apart (l : List Char) : Prop :=
  '\n' ∉ l ∧ ∃ c ∈ l, c ∉ fenced titleLine

theorem Apart.append_left {l : List Char} (apart : Apart l) {indent : List Char}
    (whole : '\n' ∉ indent)
    : Apart (indent ++ l) :=
  let ⟨unbroken, c, member, foreign⟩ := apart
  ⟨List.not_mem_append whole unbroken, c, List.mem_append_right _ member, foreign⟩

theorem Apart.append_right {l rest : List Char} (apart : Apart l) (whole : '\n' ∉ rest)
    : Apart (l ++ rest) :=
  let ⟨unbroken, c, member, foreign⟩ := apart
  ⟨List.not_mem_append unbroken whole, c, List.mem_append_left _ member, foreign⟩

theorem Apart.ne {l : List Char} (apart : Apart l)
    : titleLine ≠ l := by
  rintro rfl
  obtain ⟨-, c, member, foreign⟩ := apart
  exact foreign (List.mem_cons_of_mem _ (List.mem_append_left _ member))

theorem no_feed_fixed (places : Nat) (x : Float) : '\n' ∉ (fixed places x).toList :=
  not_mem_fixed (by simp [IsFigure]) (by decide) places x

/-- The difference of two parameters has no line feeds. -/
theorem no_feed_difference {a b : List Char} (whole : '\n' ∉ a) (whole' : '\n' ∉ b)
    : '\n' ∉ ("(" ++ String.ofList a ++ " - " ++ String.ofList b ++ ")").toList := by
  simp only [String.toList_append, String.toList_ofList]
  exact List.not_mem_append (List.not_mem_append (List.not_mem_append
    (List.not_mem_append (by decide) whole) (by decide)) whole') (by decide)

/-- The new lines of a function are apart from the title. -/
theorem apart_planarLines (settings : Settings) (facts : Facts) {f : Function}
    {read : List Char} (shape : Approximable f read)
    : ∀ l ∈ planarLines settings facts f, Apart l.toList := by
  have type : '\n' ∉ f.type.toList := by
    rcases List.mem_pair.mp shape.type with same | same <;>
      · rw [same]
        decide
  have slash : Apart "// ".toList := ⟨by decide, '/', by decide, by decide⟩
  have const : Apart "const ".toList := ⟨by decide, 's', by decide, by decide⟩
  have latitude : Apart " dlat_m = ".toList := ⟨by decide, 'm', by decide, by decide⟩
  have longitude : Apart " dlon_m = ".toList := ⟨by decide, 'm', by decide, by decide⟩
  have names : ∀ name ∈ [f.latitude₁, f.longitude₁, f.latitude₂, f.longitude₂], '\n' ∉ name :=
    fun name member feed => absurd (shape.names name member _ feed) (by decide)
  simp only [List.forall_mem_cons] at names
  obtain ⟨latitude₁, longitude₁, latitude₂, longitude₂, -⟩ := names
  unfold planarLines
  simp only [List.forall_mem_cons, String.toList_append]
  have number := no_feed_fixed
  refine ⟨?_, ?_, ?_, ?_, ?_, ⟨by decide +kernel, 's', by decide +kernel, by decide⟩,
    ⟨by decide +kernel, '/', by decide +kernel, by decide⟩, by simp⟩
  · exact (((((slash.append_right (by decide +kernel)).append_right (by decide)).append_right
      (by decide +kernel)).append_right (by decide +kernel)).append_right (number _ _)).append_right
        (by decide +kernel)
  · exact (((const.append_right type).append_right (by decide +kernel)).append_right
      (number _ _)).append_right (by decide)
  · exact (((((const.append_right type).append_right (by decide +kernel)).append_right
      (number _ _)).append_right (by decide +kernel)).append_right (number _ _)).append_right
        (by decide +kernel)
  · have difference := no_feed_difference latitude₂ latitude₁
    simp only [String.toList_append] at difference
    exact (((latitude.append_left type).append_right difference).append_right
      (by decide +kernel))
  · have difference := no_feed_difference longitude₂ longitude₁
    simp only [String.toList_append] at difference
    exact (((longitude.append_left type).append_right difference).append_right
      (by decide +kernel))

theorem apart_commented (body : List Char)
    : ∀ l ∈ (filledLines body).map fun line => '/' :: '/' :: commentText line, Apart l := by
  intro l member
  obtain ⟨line, filled, rfl⟩ := List.mem_map.mp member
  have whole := no_feed_of_mem_lines (List.mem_filter.mp filled).1
  have part : commentText line ⊆ line :=
    List.Subset.trans (dropEndWhile_subset _ _) (dropEndWhile_subset _ _)
  refine ⟨fun feed => whole (part ?_), '/', List.mem_cons_self, by decide⟩
  simpa using feed

theorem no_feed_indentation (body : List Char) : '\n' ∉ indentation body := by
  have first : '\n' ∉ ((filledLines body).headD []).takeWhile isBlank := by
    cases filled : filledLines body with
    | nil => simp
    | cons line rest =>
        have whole : '\n' ∉ line :=
          no_feed_of_mem_lines (List.mem_filter.mp (filled ▸ List.mem_cons_self)).1
        exact fun feed => whole (List.takeWhile_subset _ feed)
  simp only [indentation]
  split
  · exact fun feed => by simpa using List.eq_of_mem_replicate feed
  · exact first

/-- A function with its body approximated brings no title in. -/
theorem planar_bringsNoTitle (settings : Settings) (facts : Facts) {f : Function}
    {read : List Char} (shape : Approximable f read)
    : BringsNoLine titleLine (planar settings facts f) read := by
  have apart : ∀ l ∈ ((planarLines settings facts f).map String.toList
      ++ (filledLines f.body).map fun line => '/' :: '/' :: commentText line), Apart l := by
    intro l member
    rcases List.mem_append.mp member with new | old
    · obtain ⟨line, within, rfl⟩ := List.mem_map.mp new
      exact apart_planarLines settings facts shape line within
    · exact apart_commented f.body l old
  have inside : ∀ other ∈ ((planarLines settings facts f).map String.toList
      ++ (filledLines f.body).map fun line => '/' :: '/' :: commentText line).map
        (indentation f.body ++ ·), '\n' ∉ other ∧ titleLine ≠ other := by
    intro other member
    obtain ⟨l, within, rfl⟩ := List.mem_map.mp member
    have indented := (apart l within).append_left (no_feed_indentation f.body)
    exact ⟨indented.1, indented.ne⟩
  have body := not_fenced_infix_lines titleLine_unbroken inside
  rw [List.flatMap_map] at body
  rw [shape.whole]
  have changed : BringsNoLine titleLine _ ('{' :: (f.body ++ ['}'])) :=
    .of_foreign_ends titleLine_unbroken (by decide : '{' ∉ fenced titleLine)
      (by decide : '}' ∉ fenced titleLine) body
  have whole := (BringsNoLine.refl titleLine f.head).append changed
  simp only [List.append_assoc, List.cons_append] at whole
  simpa only [planar, List.append_assoc, List.cons_append] using whole

theorem rewrite_bringsNoTitle (settings : Settings) (facts : Facts) (text : List Char)
    : BringsNoLine titleLine (rewrite settings facts text) text :=
  replace_bringsNoTitle fun _ _ member =>
    planar_bringsNoTitle settings facts (Idiom.forall_hits reads_idiom member)

end PlanarDistance

-----------------------------------------------------------------------------------------
-- All templates but one
-----------------------------------------------------------------------------------------

/-- Main statement: a template other than the one for zone constants brings no title in. -/
theorem transform_bringsNoTitle (settings : Settings) (facts : Facts)
    {optimization : Optimization} (other : optimization ≠ .zoneConstants) (text : List Char)
    : BringsNoLine titleLine (transform settings facts optimization text) text := by
  unfold transform
  split
  · cases optimization with
    | narrowCoordinates => exact NarrowCoordinates.rewrite_bringsNoTitle text
    | removeRangeGuards =>
        exact replaceAll_bringsNoTitle _ (by decide +kernel) (by decide +kernel) text
    | planarDistance => exact PlanarDistance.rewrite_bringsNoTitle settings facts text
    | removeNullGuards =>
        exact replaceAll_bringsNoTitle _ (by decide +kernel) (by decide +kernel) text
    | compressStorage => exact CompressStorage.rewrite_bringsNoTitle settings facts text
    | zoneConstants => exact absurd rfl other
  · exact .refl _ _

end RangeTuner.Rewrite
