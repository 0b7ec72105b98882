import RangeTuner.Proofs.Provenance.Header
import RangeTuner.Proofs.Text.CommentEnds
import RangeTuner.Proofs.Text.Lexemes

/-! Headers of any records as comments. An explanation may say what it likes: the ends of comments
in it are broken up, and what is put around it makes none. Main statement: the first end of a
comment in an annotated text is the one on the last line of its header, so cleaning takes the
header away and nothing else.
-/

namespace RangeTuner.Provenance

open RangeTuner.Rewrite RangeTuner.Text

-----------------------------------------------------------------------------------------
-- Explanations
-----------------------------------------------------------------------------------------

theorem head?_harmless (s : List Char) : (harmless s).head? = s.head? := by
  fun_cases harmless s <;> rfl

/-- No comment ends in a harmless text, by induction on what it is made from. -/
theorem endsNoComment_harmless (s : List Char) : EndsNoComment (harmless s) := by
  fun_induction harmless s with
  | case1 s ih =>
      -- the blank keeps the star from the slash
      have slash : EndsNoComment ('/' :: harmless s) := ih.cons (by simp)
      have blank : EndsNoComment (' ' :: '/' :: harmless s) := slash.cons (by simp)
      exact blank.cons (by simp)
  | case2 c s other ih =>
      refine ih.cons fun star slash => ?_
      rw [head?_harmless] at slash
      obtain ⟨rest, rfl⟩ := List.head?_eq_some_iff.mp slash
      exact other rest star rfl
  | case3 => rfl

-----------------------------------------------------------------------------------------
-- Lines
-----------------------------------------------------------------------------------------

theorem endsNoComment_entryLines {bullet : String} (known : bullet = "+" ∨ bullet = "-")
    (entry : ProvenanceEntry)
    : ∀ line ∈ entryLines bullet entry, EndsNoComment line.toList := by
  -- nothing but the explanation has a slash
  have sign : '/' ∉ bullet.toList := by
    rcases known with rfl | rfl <;> decide
  have id : '/' ∉ entry.optimization.id.toList := by
    cases entry.optimization <;> decide
  have fate : '/' ∉ entry.fate.describe.toList := by
    rcases entry.fate with _ | _ | _ | verdict
    case gate => cases verdict <;> decide
    all_goals decide
  have share : '/' ∉ (Optimization.percent entry.confidence).toList := fun member =>
    (Optimization.percent_tame entry.confidence).free _ member (by decide)
  unfold entryLines
  rw [List.forall_mem_cons]
  refine ⟨.of_absent (c := '/') ?_ (by decide), fun line member => ?_⟩
  · simp only [String.toList_append, List.mem_append, not_or]
    exact ⟨⟨⟨⟨⟨⟨⟨by decide, sign⟩, by decide⟩, id⟩, by decide⟩, fate⟩, by decide⟩, share⟩
  · split at member
    · cases member
    · rw [List.mem_singleton.mp member]
      simp only [String.toList_append, String.toList_ofList]
      exact .append_cons (s := " *      ".toList) (c := ' ') (by decide)
        (endsNoComment_harmless entry.explanation.toList) (by decide)

theorem endsNoComment_groupLines {name bullet : String} (known : bullet = "+" ∨ bullet = "-")
    (free : '/' ∉ name.toList) (entries : List ProvenanceEntry)
    : ∀ line ∈ groupLines name bullet entries, EndsNoComment line.toList := by
  have count : '/' ∉ (toString entries.length).toList := fun member => by
    have figure := Decimal.isFigure_of_mem_digits (n := entries.length)
      (by simpa [Decimal.digits] using member)
    exact absurd figure (by decide)
  unfold groupLines
  rw [List.forall_mem_cons]
  refine ⟨.of_absent (c := '/') ?_ (by decide), fun line member => ?_⟩
  · simp only [String.toList_append, List.mem_append, not_or]
    exact ⟨⟨⟨⟨by decide, free⟩, by decide⟩, count⟩, by decide⟩
  · split at member
    · rw [List.mem_singleton.mp member]
      decide
    · obtain ⟨entry, -, member⟩ := List.mem_flatMap.mp member
      exact endsNoComment_entryLines known entry line member

/-- No line of a header but those of its closing ends a comment. -/
theorem endsNoComment_headerLines (entries : List ProvenanceEntry)
    : ∀ line ∈ headerLines entries, EndsNoComment line.toList := by
  have opening : ∀ line ∈ ["/*", title, " *"], EndsNoComment line.toList := by decide
  have blank : ∀ line ∈ [" *"], EndsNoComment line.toList := by decide
  intro line member
  rcases List.mem_append.mp member with member | last
  · rcases List.mem_append.mp member with member | others
    · rcases List.mem_append.mp member with member | middle
      · rcases List.mem_append.mp member with first | applied
        · exact opening line first
        · exact endsNoComment_groupLines (.inl rfl) (by decide) _ line applied
      · exact blank line middle
    · exact endsNoComment_groupLines (.inr rfl) (by decide) _ line others
  · exact blank line last

-----------------------------------------------------------------------------------------
-- Headers
-----------------------------------------------------------------------------------------

/-- A header up to the end of its comment. -/
def untilEnd (entries : List ProvenanceEntry) : List Char :=
  ((headerLines entries).flatMap fun line => line.toList ++ ['\n']) ++ (endLine ++ ['\n', ' '])

theorem header_eq_untilEnd (entries : List ProvenanceEntry)
    : header entries = untilEnd entries ++ ['*', '/', '\n', '\n'] := by
  have closed : closing.toList ++ ['\n'] = endLine ++ ['\n', ' ', '*', '/', '\n', '\n'] := by
    decide
  unfold header untilEnd
  rw [List.append_assoc, closed]
  simp

theorem endsNoComment_untilEnd (entries : List ProvenanceEntry)
    : EndsNoComment (untilEnd entries) := by
  have lines := EndsNoComment.lines_append
    (List.forall_mem_map.mpr (endsNoComment_headerLines entries))
    (by decide : EndsNoComment (endLine ++ ['\n', ' ']))
  rwa [List.flatMap_map] at lines

/-- A header is a block comment and a blank line. -/
theorem header_eq_blockComment (entries : List ProvenanceEntry)
    : ∃ content, EndsNoComment content
      ∧ header entries = blockComment content ++ ['\n', '\n'] := by
  obtain ⟨content, same⟩ : ∃ content, untilEnd entries = ['/', '*'] ++ content := ⟨_, rfl⟩
  refine ⟨content, .of_append_right (same ▸ endsNoComment_untilEnd entries), ?_⟩
  rw [header_eq_untilEnd, same]
  simp [blockComment]

/-- What stands below the header of an annotated text. -/
def below (required : List String) (text : List Char) : List Char :=
  includeBlock (missing required (strip text)) ++ strip text

theorem annotate_eq (required : List String) (entries : List ProvenanceEntry)
    (text : List Char)
    : annotate required entries text = header entries ++ below required text :=
  List.append_assoc ..

/-- Line feeds between comments are code. -/
theorem clean_lineFeeds (t : List Char) : clean ('\n' :: '\n' :: t) = '\n' :: '\n' :: clean t := by
  rw [clean_cons rfl, clean_cons rfl]

/-- Main statement: whatever the records of a header say, the first end of a comment in an annotated
text stands on the last line of the header, behind its closing words, and the cleaned text is two
line feeds and the cleaned text below the header.
-/
theorem header_stays_in_comment (required : List String) (entries : List ProvenanceEntry)
    (text : List Char)
    : splitAtFirst? "*/".toList (annotate required entries text)
          = some (((headerLines entries).flatMap fun line => line.toList ++ ['\n'])
              ++ " * end rangeopt provenance\n ".toList,
            '\n' :: '\n' :: (includeBlock (missing required (strip text)) ++ strip text))
      ∧ clean (annotate required entries text)
          = '\n' :: '\n' :: clean (includeBlock (missing required (strip text)) ++ strip text) := by
  refine ⟨?_, ?_⟩
  · have words : " * end rangeopt provenance\n ".toList = endLine ++ ['\n', ' '] := by decide
    rw [annotate_eq, header_eq_untilEnd, List.append_assoc, words]
    exact splitAtFirst?_content (endsNoComment_untilEnd entries) _
  · obtain ⟨content, inert, same⟩ := header_eq_blockComment entries
    rw [annotate_eq, same, List.append_assoc, clean_blockComment inert]
    exact clean_lineFeeds _

end RangeTuner.Provenance
