import RangeTuner.Inputs
import RangeTuner.Proofs.Rewrite.ConstantsText
import RangeTuner.Proofs.Text.CommentEnds
import RangeTuner.Provenance

/-! Headers as texts. The explanations of the catalogue close no comment, start no hit and name no
constants, so the header of any records that have them is a comment that no template touches. Main
statements: the parts of such a header, and that annotating a text finds the header it starts with.
-/

namespace RangeTuner

open RangeTuner.Decimal RangeTuner.Rewrite RangeTuner.Text

-----------------------------------------------------------------------------------------
-- Explanations
-----------------------------------------------------------------------------------------

/-- The signs that stand in no record of a header. -/
def headerSigns : List Char :=
  ['/', '#', 'G', '\n']

theorem headerSigns_notInNumbers : NotInNumbers headerSigns := by decide

namespace Optimization

theorem percent_tame (share : Float) : Tame headerSigns (percent share).toList := by
  unfold percent
  rw [String.toList_append]
  exact .number_append headerSigns_notInNumbers 1 _ (by decide) (by decide)

/-- What comes after the reason in an explanation, up to the number. -/
def opensConfidence : List Char :=
  " (confidence: ".toList

theorem tame_reason_of_number {after : String} (places : Nat) (x : Float)
    (tame : Tame headerSigns (after.toList ++ opensConfidence))
    : Tame headerSigns ((fixed places x ++ after).toList ++ opensConfidence) := by
  rw [String.toList_append, List.append_assoc]
  exact .number_append headerSigns_notInNumbers places x tame
    (List.append_ne_nil_of_right_ne_nil _ (by decide))

theorem tame_reason_around_number {before after : String} (places : Nat) (x : Float)
    (first : Tame headerSigns before.toList)
    (tame : Tame headerSigns (after.toList ++ opensConfidence))
    : Tame headerSigns ((before ++ fixed places x ++ after).toList ++ opensConfidence) := by
  rw [String.append_assoc, String.toList_append, List.append_assoc]
  exact first.append (tame_reason_of_number places x tame)

/-- Reasons are tame up to the confidence, by cases. -/
theorem reason_tame (optimization : Optimization) (apply : Bool) (inputs : Inputs)
    : Tame headerSigns ((optimization.reason apply inputs).toList ++ opensConfidence) := by
  cases optimization <;> cases apply <;> unfold reason <;> dsimp only
  case narrowCoordinates.true | narrowCoordinates.false | planarDistance.true
      | planarDistance.false | removeNullGuards.true =>
    exact tame_reason_around_number _ _ (by decide +kernel) (by decide +kernel)
  case zoneConstants.true => exact tame_reason_of_number _ _ (by decide +kernel)
  case removeRangeGuards.true => split <;> decide +kernel
  all_goals decide +kernel

/-- What the catalogue explains closes no comment, starts no hit and names no constants. -/
theorem explain_tame (optimization : Optimization) (apply : Bool) (inputs : Inputs)
    (confidence : Float)
    : Tame headerSigns (optimization.explain apply inputs confidence).toList := by
  have reason := reason_tame optimization apply inputs
  have finish : Tame headerSigns (percent confidence ++ ")").toList := by
    rw [String.toList_append]
    exact (percent_tame confidence).append (by decide)
  unfold explain
  rw [String.append_assoc, String.append_assoc, String.toList_append, String.toList_append,
    ← List.append_assoc]
  exact reason.append finish

end Optimization

-----------------------------------------------------------------------------------------
-- The lines of a header
-----------------------------------------------------------------------------------------

namespace Provenance

/-- A line of a header other than the title. -/
structure HeaderLine (l : List Char) : Prop where
  tame : Tame headerSigns l
  other : titleLine ≠ l

instance (l : List Char) : Decidable (HeaderLine l) :=
  decidable_of_iff (Tame headerSigns l ∧ titleLine ≠ l)
    ⟨fun ⟨tame, other⟩ => ⟨tame, other⟩, fun ⟨tame, other⟩ => ⟨tame, other⟩⟩

theorem HeaderLine.append {s l : List Char} (first : Tame headerSigns s)
    (other : clashes titleLine s = true) (rest : Tame headerSigns l)
    : HeaderLine (s ++ l) :=
  ⟨first.append rest, ne_of_clashes (clashes_append other l)⟩

/-- A text that ends no comment is harmless as it is, by induction on it. -/
theorem harmless_eq_self {s : List Char} (free : '/' ∉ s)
    : harmless s = s := by
  fun_induction harmless s with
  | case1 s ih => exact absurd (by simp) free
  | case2 c s _ ih => rw [ih fun member => free (List.mem_cons_of_mem _ member)]
  | case3 => rfl

/-- The records have explanations that are tame. -/
abbrev Remarks (entries : List ProvenanceEntry) : Prop :=
  ∀ entry ∈ entries, Tame headerSigns entry.explanation.toList

theorem entryLines_headerLine {bullet : String} (known : bullet = "+" ∨ bullet = "-")
    {entry : ProvenanceEntry} (remark : Tame headerSigns entry.explanation.toList)
    : ∀ line ∈ entryLines bullet entry, HeaderLine line.toList := by
  have id : TameStart headerSigns entry.optimization.id.toList := by
    cases entry.optimization <;> decide
  have fate : TameStart headerSigns entry.fate.describe.toList := by
    rcases entry.fate with _ | _ | _ | verdict
    case gate => cases verdict <;> decide +kernel
    all_goals decide +kernel
  -- the identifier and the fate end in the middle of a word, so each is put before what follows it
  have sign : Tame headerSigns bullet.toList := by
    rcases known with rfl | rfl <;> decide
  have finish : Tame headerSigns
      ("] confidence ".toList ++ (Optimization.percent entry.confidence).toList) :=
    .append (by decide) (Optimization.percent_tame entry.confidence)
  have named : Tame headerSigns (entry.optimization.id.toList ++ (" [".toList
      ++ (entry.fate.describe.toList
        ++ ("] confidence ".toList ++ (Optimization.percent entry.confidence).toList)))) :=
    .prepend id
      (.append (by decide) (.prepend fate finish
        (List.append_ne_nil_of_left_ne_nil (by decide) _)))
      (List.append_ne_nil_of_left_ne_nil (by decide) _)
  unfold entryLines
  rw [List.forall_mem_cons]
  refine ⟨?_, fun line member => ?_⟩
  · simp only [String.toList_append, List.append_assoc]
    exact .append (by decide) (by decide) (sign.append (.append (by decide) named))
  · split at member
    · cases member
    · rw [List.mem_singleton.mp member, String.toList_append,
        harmless_eq_self fun slash => remark.free _ slash (by decide), String.ofList_toList]
      exact .append (by decide) (by decide) remark

theorem groupLines_headerLine (name : String) {bullet : String}
    (known : bullet = "+" ∨ bullet = "-")
    (tame : Tame headerSigns (name.toList ++ " (".toList))
    (other : clashes titleLine (" * ".toList ++ name.toList) = true)
    {entries : List ProvenanceEntry} (remarks : Remarks entries)
    : ∀ line ∈ groupLines name bullet entries, HeaderLine line.toList := by
  have count : Tame headerSigns ((toString entries.length).toList ++ "):".toList) := by
    refine .figures_append headerSigns_notInNumbers (fun c member => ?_) (by decide) (by decide)
    exact isFigure_of_mem_digits (n := entries.length) (by simpa [digits] using member)
  unfold groupLines
  rw [List.forall_mem_cons]
  refine ⟨?_, fun line member => ?_⟩
  · simp only [String.toList_append, List.append_assoc]
    rw [← List.append_assoc name.toList]
    refine ⟨.append (by decide) (tame.append count), ?_⟩
    rw [List.append_assoc, ← List.append_assoc]
    exact ne_of_clashes (clashes_append other _)
  · split at member
    · rw [List.mem_singleton.mp member]
      decide
    · obtain ⟨entry, within, member⟩ := List.mem_flatMap.mp member
      exact entryLines_headerLine known (remarks entry within) line member

/-- The lines of a header are its first line, the title and lines that are neither hits nor
titles.
-/
theorem headerLines_eq {entries : List ProvenanceEntry} (remarks : Remarks entries)
    : ∃ lines : List String, headerLines entries = "/*" :: title :: lines
      ∧ ∀ line ∈ lines, HeaderLine line.toList := by
  have among : ∀ keep : ProvenanceEntry → Bool, Remarks (entries.filter keep) :=
    fun keep entry member => remarks entry (List.mem_filter.mp member).1
  have blank : ∀ line ∈ [" *"], HeaderLine line.toList := by decide
  have applied := groupLines_headerLine "applied" (.inl rfl) (by decide) (by decide)
    (among ProvenanceEntry.isApplied)
  have others := groupLines_headerLine "not applied" (.inr rfl) (by decide) (by decide)
    (among fun entry => !entry.isApplied)
  refine ⟨_, rfl, fun line member => ?_⟩
  rcases List.mem_append.mp member with member | last
  · rcases List.mem_append.mp member with member | ofOthers
    · rcases List.mem_append.mp member with member | middle
      · rcases List.mem_append.mp member with first | ofApplied
        · exact blank line first
        · exact applied line ofApplied
      · exact blank line middle
    · exact others line ofOthers
  · exact blank line last

-----------------------------------------------------------------------------------------
-- Headers
-----------------------------------------------------------------------------------------

/-- The last line of a header before its end, and the end with the blank line after it. -/
def endLine : List Char :=
  " * end rangeopt provenance".toList

/-- The end of a header, with the blank line after it. -/
def ending : List Char :=
  endLine ++ ['\n', ' ', '*', '/', '\n', '\n']

/-- The closing is found where no comment ends before it. -/
theorem splitAtFirst?_closing {s : List Char} (inert : EndsNoComment s) (t : List Char)
    : splitAtFirst? closing.toList (s ++ (closing.toList ++ t)) = some (s, t) := by
  have closed : closing.toList = (endLine ++ ['\n', ' ']) ++ '*' :: '/' :: ['\n'] := by decide
  have within : EndsNoComment (s ++ (endLine ++ ['\n', ' '])) :=
    inert.append_cons (c := ' ') (t := endLine.tail ++ ['\n', ' ']) (by decide) (by decide)
  have found : splitAtFirst? ((endLine ++ ['\n', ' ']) ++ '*' :: '/' :: ['\n']) _ = some (s, t) :=
    splitAtFirst?_of_endsNoComment within t
  rw [closed]
  simpa only [List.append_assoc, List.cons_append, List.nil_append] using found

/-- A text that opens like a header is stripped up to the first end of a comment, if that is in the
closing, and of the line feeds behind it.
-/
theorem strip_closed {s : List Char} (opens : openingLines <+: s) (inert : EndsNoComment s)
    (t : List Char)
    : strip (s ++ (closing.toList ++ '\n' :: t)) = dropLineFeeds t := by
  obtain ⟨rest, rfl⟩ := opens
  have first : openingLines = '/' :: openingLines.tail := by decide
  have trimmed : ∀ u, dropLineFeeds (openingLines ++ u) = openingLines ++ u := by
    intro u
    rw [first]
    exact List.dropWhile_cons_of_neg (by decide)
  have started : ∀ u, (after? openingLines (openingLines ++ u)).isSome = true := by
    intro u
    rw [after?_eq_some_iff.mpr rfl]
    rfl
  have found := splitAtFirst?_closing inert ('\n' :: t)
  unfold strip
  rw [List.append_assoc] at found ⊢
  simp only [trimmed, started, found, if_true]
  exact List.dropWhile_cons_of_pos rfl

/-- A text that is built like a header. -/
def IsHeader (h : List Char) : Prop :=
  ∃ lines : List (List Char), (∀ l ∈ lines, HeaderLine l)
    ∧ h = openingLines ++ (lines.flatMap (· ++ ['\n']) ++ ending)

/-- The header of records with tame explanations is a header. -/
theorem header_isHeader {entries : List ProvenanceEntry} (remarks : Remarks entries)
    : IsHeader (header entries) := by
  obtain ⟨lines, same, each⟩ := headerLines_eq remarks
  have opening : ("/*" :: title :: lines).flatMap (fun line => line.toList ++ ['\n'])
      = openingLines ++ lines.flatMap (fun line => line.toList ++ ['\n']) := by
    rw [List.flatMap_cons, List.flatMap_cons, ← List.append_assoc]
    congr 1
  have finish : closing.toList ++ ['\n'] = ending := by decide
  refine ⟨lines.map String.toList, List.forall_mem_map.mpr each, ?_⟩
  rw [header, same, opening, List.append_assoc, List.append_assoc, finish, List.flatMap_map]

/-- A text that starts with a title has one more than the rest. -/
theorem titles_openingLines (t : List Char)
    : titles (openingLines ++ t) = titles t + 1 := by
  have lines : openingLines ++ t = ['/', '*'] ++ '\n' :: (titleLine ++ '\n' :: t) := by
    rw [show openingLines = ['/', '*'] ++ '\n' :: (titleLine ++ ['\n']) from by decide]
    simp
  have first : titles ['/', '*'] = 0 := by decide
  have second : titles titleLine = 1 := by decide
  rw [lines, titles_append_feed, titles_append_feed, first, second, Nat.zero_add, Nat.add_comm]

section

variable {lines : List (List Char)} (each : ∀ l ∈ lines, HeaderLine l)
include each

theorem headerLines_preface : Preface (lines.flatMap (· ++ ['\n'])) := by
  refine .of_lines _ fun l member => ⟨⟨?_, ?_⟩, (each l member).other⟩
  · exact (each l member).tame.quiet.append calm_lasting (by decide)
  · exact fun feed => (each l member).tame.free _ feed (by decide)

/-- Signs other than line feeds stand in no lines of a header. -/
theorem not_mem_headerLines {c : Char} (sign : c ∈ headerSigns) (other : c ≠ '\n')
    : c ∉ lines.flatMap (· ++ ['\n']) := by
  intro member
  obtain ⟨l, within, member⟩ := List.mem_flatMap.mp member
  rcases List.mem_append.mp member with inLine | feed
  · exact (each l within).tame.free c inLine sign
  · exact other (List.mem_singleton.mp feed)

end

theorem ending_preface : Preface ending :=
  Preface.of_lines [endLine, [' ', '*', '/'], []] (by decide)

namespace IsHeader

variable {h : List Char} (isHeader : IsHeader h)
include isHeader

theorem startsWith : openingLines <+: h := by
  obtain ⟨lines, -, rfl⟩ := isHeader
  exact List.prefix_append _ _

theorem quiet : Quiet calm h := by
  obtain ⟨lines, each, rfl⟩ := isHeader
  exact (by decide : Quiet calm openingLines).append calm_lasting
    ((headerLines_preface each).append ending_preface).quiet

/-- A header is a comment without directives and constants. -/
theorem banner : ZoneConstants.Banner h := by
  obtain ⟨lines, each, rfl⟩ := isHeader
  have absent : ∀ {c : Char}, c ∈ headerSigns → c ≠ '\n' → c ∉ openingLines → c ∉ ending
      → c ∉ openingLines ++ (lines.flatMap (· ++ ['\n']) ++ ending) :=
    fun sign other first last =>
      List.not_mem_append first
        (List.not_mem_append (not_mem_headerLines each sign other) last)
  refine ⟨⟨'\n' :: titleLine ++ '\n' :: (lines.flatMap (· ++ ['\n'])
    ++ (endLine ++ ['\n', ' '])), ?_, ?_⟩, ?_, ?_⟩
  · rw [show openingLines = '/' :: '*' :: '\n' :: (titleLine ++ ['\n']) from by decide, ending]
    simp
  · exact List.not_mem_append (by decide) (List.not_mem_cons_of_ne_of_not_mem (by decide)
      (List.not_mem_append (not_mem_headerLines each (by decide) (by decide)) (by decide)))
  · exact absent (by decide) (by decide) (by decide) (by decide)
  · exact absent (by decide) (by decide) (by decide) (by decide)

/-- A header brings one title in. -/
theorem titles_append (t : List Char)
    : titles (h ++ t) = titles t + 1 := by
  obtain ⟨lines, each, rfl⟩ := isHeader
  rw [List.append_assoc, titles_openingLines,
    ((headerLines_preface each).append ending_preface).untitled]

/-- The header that a text starts with is found, and left out with the line feeds after it. -/
theorem strip_append (t : List Char)
    : strip (h ++ t) = dropLineFeeds t := by
  obtain ⟨lines, each, rfl⟩ := isHeader
  have finish : ending = closing.toList ++ ['\n'] := by decide
  have opening : openingLines = (['/', '*', '\n'] ++ titleLine) ++ ['\n'] := by decide
  -- no slash but the first stands before the closing
  have free : '/' ∉ lines.flatMap (· ++ ['\n']) :=
    not_mem_headerLines each (by decide) (by decide)
  have inert : EndsNoComment (openingLines ++ lines.flatMap (· ++ ['\n'])) := by
    rw [opening, List.append_assoc]
    exact .append_cons (by decide) (.of_absent free (by decide)) (by decide)
  have stripped := strip_closed (List.prefix_append openingLines _) inert t
  rwa [finish, ← List.append_assoc, List.append_assoc, List.append_assoc]

end IsHeader

/-- Where something else than line feeds stands first, only those before it are left out. -/
theorem dropLineFeeds_append {s : List Char} (filled : dropLineFeeds s ≠ []) (t : List Char)
    : dropLineFeeds (s ++ t) = dropLineFeeds s ++ t := by
  unfold dropLineFeeds at filled ⊢
  rw [List.dropWhile_append, if_neg (by simpa using filled)]

/-- A text that starts with no header stays as it is. -/
theorem strip_of_unheaded {text : List Char}
    (unheaded : after? openingLines (dropLineFeeds text) = none)
    : strip text = text := by
  unfold strip
  simp only [unheaded, Option.isSome_none, Bool.false_eq_true, if_false]

/-- A text without a title has no header that could be left out. -/
theorem strip_of_untitled {text : List Char} (untitled : titles text = 0)
    : strip text = text := by
  refine strip_of_unheaded (Option.eq_none_iff_forall_ne_some.mpr fun rest headed => ?_)
  rw [← titles_dropLineFeeds, after?_eq_some_iff.mp headed, titles_openingLines] at untitled
  omega

/-- Required includes are a preface. -/
theorem includeBlock_preface {headers : List String}
    (required : ∀ header ∈ headers, header ∈ requiredHeaders)
    : Preface (includeBlock headers) := by
  have lines : ∀ header ∈ requiredHeaders, LineTail ("#include <" ++ header ++ ">").toList
      ∧ titleLine ≠ ("#include <" ++ header ++ ">").toList := by decide +kernel
  have block := Preface.of_lines _
    (List.forall_mem_map.mpr fun header member => lines header (required header member))
  have ended : ∀ header, ("#include <" ++ header ++ ">\n").toList
      = ("#include <" ++ header ++ ">").toList ++ ['\n'] := by
    intro header
    have finish : ">\n".toList = ">".toList ++ ['\n'] := by decide
    simp only [String.toList_append, List.append_assoc, finish]
  rw [List.flatMap_map] at block
  unfold includeBlock
  split
  · exact .nil
  · simp only [ended]
    exact block.append (.of_lines [[]] (by decide))

end Provenance

end RangeTuner
