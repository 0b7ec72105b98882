import RangeTuner.Proofs.Provenance.CommentHeader
import RangeTuner.Proofs.Provenance.Includes

/-! Annotating an annotated text. The old header is found whatever its records say, and the includes
that were put in are found again, so that none is missing any more. The line feeds below the old
header are left out, though, and a text may start with some of its own. Main statement: annotating
an annotated text is annotating the text itself, unless the text has no header, starts with a line
feed and misses no include.
-/

namespace RangeTuner.Provenance

open RangeTuner.Text

-----------------------------------------------------------------------------------------
-- The old header
-----------------------------------------------------------------------------------------

/-- The header of any records is found, and left out with the line feeds after it. -/
theorem strip_header_append (entries : List ProvenanceEntry) (t : List Char)
    : strip (header entries ++ t) = dropLineFeeds t := by
  have opens : openingLines
      <+: (headerLines entries).flatMap fun line => line.toList ++ ['\n'] := by
    obtain ⟨lines, same⟩ : ∃ lines, headerLines entries = "/*" :: title :: lines := ⟨_, rfl⟩
    rw [same, List.flatMap_cons, List.flatMap_cons, ← List.append_assoc]
    exact List.prefix_append openingLines _
  have inert := EndsNoComment.lines_append (t := [])
    (List.forall_mem_map.mpr (endsNoComment_headerLines entries)) rfl
  rw [List.flatMap_map, List.append_nil] at inert
  have stripped := strip_closed opens inert t
  simpa only [header, List.append_assoc, List.singleton_append] using stripped

-----------------------------------------------------------------------------------------
-- Includes
-----------------------------------------------------------------------------------------

/-- No include starts at a line feed. -/
theorem findAll_feed (t : List Char) : includeLine.findAll ('\n' :: t) = includeLine.findAll t := by
  have unread : includeLine.read? none ('\n' :: t) = none := rfl
  have same : includeLine.piecesFrom 0 (some '\n') t = includeLine.pieces t :=
    @Idiom.piecesFrom_congr _ includeLine (some '\n') none rfl 0 t
  rw [Idiom.findAll, Idiom.pieces, Idiom.piecesFrom, unread, same]
  rfl

theorem findAll_dropLineFeeds (t : List Char)
    : includeLine.findAll (dropLineFeeds t) = includeLine.findAll t := by
  induction t with
  | nil => rfl
  | cons c t ih =>
      by_cases feed : c = '\n'
      · subst feed
        rw [findAll_feed, ← ih]
        rfl
      · simp [dropLineFeeds, feed]

/-- An include on a line of its own is found in front of what is found behind it. -/
theorem findAll_include_append {name : List Char} (includable : Includable name) (t : List Char)
    : includeLine.findAll (includeOf name ++ '\n' :: t) = name :: includeLine.findAll t := by
  have scanned := (isInclude_includeOf name).scan includable ('\n' :: t)
  -- the rest of the line is its line feed, where no include starts
  have ended : (includeOf name).getLast?.or none = some '>' := by
    rw [includeOf_eq, ← List.append_assoc, List.getLast?_concat]
    rfl
  have feed : includeLine.piecesFrom 0 (some '>') ('\n' :: t)
      = .plain '\n' :: includeLine.pieces t :=
    congrArg _ (@Idiom.piecesFrom_congr _ includeLine (some '\n') none rfl 0 t)
  rw [Idiom.findAll, Idiom.pieces,
    Idiom.piecesFrom_of_scan rfl (isInclude_includeOf name).filled scanned, ended, feed]
  rfl

/-- Includes that are put in are found in front of what is found behind them, by induction on them.
-/
theorem findAll_includeBlock_append {headers : List String}
    (each : ∀ header ∈ headers, Includable header.toList) (t : List Char)
    : includeLine.findAll (includeBlock headers ++ t)
      = headers.map String.toList ++ includeLine.findAll t := by
  have lines : ∀ u, includeLine.findAll
      ((headers.flatMap fun header => ("#include <" ++ header ++ ">\n").toList) ++ u)
      = headers.map String.toList ++ includeLine.findAll u := by
    intro u
    induction headers with
    | nil => rfl
    | cons header headers ih =>
        obtain ⟨first, others⟩ := List.forall_mem_cons.mp each
        rw [List.flatMap_cons, toList_include, List.append_assoc, List.append_assoc,
          List.singleton_append, findAll_include_append first, ih others]
        rfl
  unfold includeBlock
  split
  next none =>
    rw [List.isEmpty_iff.mp none]
    rfl
  next => rw [List.append_assoc, lines, List.singleton_append, findAll_feed]

/-- Where the missing includes are put in, none is missing. -/
theorem missing_below (text : List Char)
    : missing requiredHeaders (dropLineFeeds (below requiredHeaders text)) = [] := by
  have each : ∀ header ∈ missing requiredHeaders (strip text), Includable header.toList :=
    fun header member => includable_of_required (List.mem_filter.mp member).1
  refine List.filter_eq_nil_iff.mpr fun header required => ?_
  rw [findAll_dropLineFeeds, below, findAll_includeBlock_append each, decide_eq_true_iff, not_not]
  by_cases present : header.toList ∈ includeLine.findAll (strip text)
  · exact List.mem_append_right _ present
  · have lacking : header ∈ missing requiredHeaders (strip text) :=
      List.mem_filter.mpr ⟨required, decide_eq_true present⟩
    exact List.mem_append_left _ (List.mem_map_of_mem lacking)

-----------------------------------------------------------------------------------------
-- Annotating again
-----------------------------------------------------------------------------------------

/-- Annotating an annotated text leaves what is below its header but for line feeds there. -/
theorem annotate_annotate (entries entries' : List ProvenanceEntry) (text : List Char)
    : annotate requiredHeaders entries' (annotate requiredHeaders entries text)
      = header entries' ++ dropLineFeeds (below requiredHeaders text) := by
  have stripped : strip (annotate requiredHeaders entries text)
      = dropLineFeeds (below requiredHeaders text) := by
    rw [annotate_eq, strip_header_append]
  rw [annotate_eq, below, stripped, missing_below]
  rfl

theorem dropLineFeeds_eq_self_iff {t : List Char} : dropLineFeeds t = t ↔ t.head? ≠ some '\n' := by
  cases t with
  | nil => simp [dropLineFeeds]
  | cons c t =>
      by_cases feed : c = '\n'
      · have shorter := List.length_dropWhile_le (· == '\n') t
        subst feed
        simp only [List.head?_cons, ne_eq, not_true_eq_false, iff_false]
        intro same
        have lengths := congrArg List.length same
        simp only [dropLineFeeds, List.length_cons] at lengths
        rw [List.dropWhile_cons_of_pos rfl] at lengths
        omega
      · simp [dropLineFeeds, feed]

theorem head?_dropLineFeeds (t : List Char) : (dropLineFeeds t).head? ≠ some '\n' := by
  intro first
  have stops := List.head?_dropWhile_not (· == '\n') t
  rw [dropLineFeeds] at first
  simp [first] at stops

/-- A text stays as it is, or is left without line feeds at its start. -/
theorem strip_cases (text : List Char)
    : strip text = text ∨ ∃ rest, strip text = dropLineFeeds rest := by
  unfold strip
  dsimp only
  split
  · split
    · exact .inr ⟨_, rfl⟩
    · exact .inl rfl
  · exact .inl rfl

/-- A line feed comes right below the header where the text has no header, starts with a line feed
and misses no include.
-/
theorem head?_below_iff (text : List Char)
    : (below requiredHeaders text).head? = some '\n'
      ↔ strip text = text ∧ text.head? = some '\n' ∧ missing requiredHeaders text = [] := by
  constructor
  · intro feed
    cases lacking : missing requiredHeaders (strip text) with
    | nil =>
        rw [below, lacking] at feed
        rcases strip_cases text with same | ⟨rest, dropped⟩
        · rw [same] at feed lacking
          exact ⟨same, feed, lacking⟩
        · rw [dropped] at feed
          exact absurd feed (head?_dropLineFeeds rest)
    | cons header headers =>
        rw [below, lacking] at feed
        simp [includeBlock] at feed
  · rintro ⟨same, feed, lacking⟩
    rw [below, same, lacking]
    exact feed

/-- Main statement: annotating an annotated text does what annotating the text itself does, exactly
unless the text has no header, starts with a line feed and misses no include. Such line feeds are
all that is lost, and nothing is lost of a text that was annotated before.
-/
theorem reannotation_replaces_header (entries entries' : List ProvenanceEntry)
    (text : List Char)
    : (annotate requiredHeaders entries' (annotate requiredHeaders entries text)
            = annotate requiredHeaders entries' text
          ↔ ¬ (strip text = text ∧ text.head? = some '\n' ∧ missing requiredHeaders text = []))
      ∧ annotate requiredHeaders entries' (annotate requiredHeaders entries text)
          = header entries' ++ dropLineFeeds
            (includeBlock (missing requiredHeaders (strip text)) ++ strip text)
      ∧ ∀ earlier, annotate requiredHeaders entries'
            (annotate requiredHeaders entries (annotate requiredHeaders earlier text))
          = annotate requiredHeaders entries' (annotate requiredHeaders earlier text) := by
  have exact_on : ∀ text, annotate requiredHeaders entries' (annotate requiredHeaders entries text)
        = annotate requiredHeaders entries' text
      ↔ ¬ (below requiredHeaders text).head? = some '\n' := by
    intro text
    rw [annotate_annotate, annotate_eq, List.append_cancel_left_eq, dropLineFeeds_eq_self_iff]
  refine ⟨?_, annotate_annotate entries entries' text, fun earlier => ?_⟩
  · rw [exact_on, head?_below_iff]
  · rw [exact_on, head?_below_iff]
    rintro ⟨-, feed, -⟩
    obtain ⟨content, -, same⟩ := header_eq_blockComment earlier
    rw [annotate_eq, same] at feed
    cases feed

/-- Line feeds in front of all required includes are lost. -/
theorem leading_feed_lost_by_reannotation
    : ¬ ∀ entries entries' text,
        annotate requiredHeaders entries' (annotate requiredHeaders entries text)
          = annotate requiredHeaders entries' text := by
  intro replaces
  have same := replaces [] [] ('\n' :: includeBlock requiredHeaders)
  rw [annotate_annotate, annotate_eq, List.append_cancel_left_eq, dropLineFeeds_eq_self_iff] at same
  exact same ((head?_below_iff _).mpr (by decide +kernel))

end RangeTuner.Provenance
