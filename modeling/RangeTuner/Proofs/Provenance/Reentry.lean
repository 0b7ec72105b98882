import RangeTuner.Proofs.Provenance.Header
import RangeTuner.Proofs.Rewrite.LastTurn

/-! Passes over a text, each over what the one before it left. Their output starts with a
header, and there is no other title in it unless some pass has put zone constants in front of
the header that it found: then the header is not recognized any more, and a second one is put
before it. Main statements: what one pass does to a text of each form, and how many titles a run
leaves.
-/

namespace RangeTuner

open RangeTuner.Provenance RangeTuner.Rewrite RangeTuner.Spec RangeTuner.Text

-----------------------------------------------------------------------------------------
-- Passes
-----------------------------------------------------------------------------------------

/-- What one pass over a text works with; its decisions are explained as the catalogue does. -/
structure Pass where
  settings : Settings
  facts : Facts
  report : GateReport
  explained : ∀ decision ∈ report.decisions, ∃ apply inputs confidence,
    decision.rationale = decision.optimization.explain apply inputs confidence

namespace Pass

/-- What the engine makes of a text in a pass. -/
def transformed (pass : Pass) (text : List Char) : Transformed :=
  apply pass.settings pass.facts pass.report text

/-- The text that a pass leaves, annotated. -/
def output (pass : Pass) (text : List Char) : List Char :=
  annotate requiredHeaders (ProvenanceEntry.all pass.report (pass.transformed text).edits)
    (pass.transformed text).text

/-- The text after several passes, each over what the one before it left. -/
def run (passes : List Pass) (source : List Char) : List Char :=
  passes.foldl (fun text pass => pass.output text) source

/-- The text when the zone constants get their turn. -/
def beforeConstants (pass : Pass) (text : List Char) : List Char :=
  textAtTurn pass.settings pass.facts pass.report text .zoneConstants

/-- The pass puts zone constants in front of the header that the text starts with: it may put them
in, the text does not have them at their turn, and no directive stands before any code.
-/
structure Displaces (pass : Pass) (text : List Char) : Prop where
  headed : openingLines <+: text
  approved : pass.report.approves .zoneConstants = true
  authorized : authorizes pass.settings pass.facts .zoneConstants = true
  absent : occurs ZoneConstants.centerName.toList (pass.beforeConstants text) = false
  nowhere : ZoneConstants.start (pass.beforeConstants text) = []

/-- Some pass of a run displaces the header that it finds. -/
def Displaced : List Pass → List Char → Prop
  | [], _ => False
  | pass :: rest, text => pass.Displaces text ∨ Displaced rest (pass.output text)

variable {pass : Pass} {text : List Char}

/-- What a pass leaves is a header, a preface and the transformed text without its old header. -/
theorem output_eq (pass : Pass) (text : List Char)
    : ∃ h block, IsHeader h ∧ Preface block
      ∧ pass.output text = h ++ (block ++ strip (pass.transformed text).text) := by
  have remarks : Remarks (ProvenanceEntry.all pass.report (pass.transformed text).edits) := by
    intro entry member
    obtain ⟨decision, decided, rfl⟩ := List.mem_map.mp member
    obtain ⟨applied, inputs, confidence, same⟩ := pass.explained decision decided
    rw [show (ProvenanceEntry.ofDecision _ decision).explanation = decision.rationale from rfl,
      same]
    exact Optimization.explain_tame _ applied inputs confidence
  have required : ∀ header ∈ missing requiredHeaders (strip (pass.transformed text).text),
      header ∈ requiredHeaders := fun header member => (List.mem_filter.mp member).1
  refine ⟨_, _, header_isHeader remarks, includeBlock_preface required, ?_⟩
  rw [output, annotate, List.append_assoc]

theorem text_transformed (pass : Pass) (text : List Char)
    : (pass.transformed text).text
      = if pass.report.approves .zoneConstants then
          transform pass.settings pass.facts .zoneConstants (pass.beforeConstants text)
        else pass.beforeConstants text :=
  text_apply text

theorem beforeConstants_append (pass : Pass) {s : List Char} (quiet : Quiet calm s)
    (t : List Char)
    : pass.beforeConstants (s ++ t) = s ++ pass.beforeConstants t :=
  textAtTurn_zoneConstants_append quiet t

theorem titles_beforeConstants (pass : Pass) (untitled : titles text = 0)
    : titles (pass.beforeConstants text) = 0 :=
  titles_textAtTurn_zoneConstants untitled

-----------------------------------------------------------------------------------------
-- One pass over texts of each form
-----------------------------------------------------------------------------------------

/-- A text with a header at its start and no other title. -/
def Headed (text : List Char) : Prop :=
  ∃ h body, text = h ++ body ∧ IsHeader h ∧ titles body = 0

/-- A text with a header at its start and an older one behind zone constants. -/
def Buried (text : List Char) : Prop :=
  ∃ h between old body, text = h ++ (between ++ (old ++ body)) ∧ IsHeader h
    ∧ Preface between ∧ occurs ZoneConstants.centerName.toList between = true
    ∧ IsHeader old ∧ titles body = 0

theorem Headed.titles_eq (headed : Headed text) : titles text = 1 := by
  obtain ⟨h, body, rfl, isHeader, untitled⟩ := headed
  rw [isHeader.titles_append, untitled]

theorem Buried.titles_eq (buried : Buried text) : titles text = 2 := by
  obtain ⟨h, between, old, body, rfl, isHeader, preface, -, isOld, untitled⟩ := buried
  rw [isHeader.titles_append, preface.untitled, isOld.titles_append, untitled]

theorem Headed.startsWith (headed : Headed text) : openingLines <+: text := by
  obtain ⟨h, body, rfl, isHeader, -⟩ := headed
  exact isHeader.startsWith.trans (List.prefix_append _ _)

theorem Buried.startsWith (buried : Buried text) : openingLines <+: text := by
  obtain ⟨h, between, old, body, rfl, isHeader, -⟩ := buried
  exact isHeader.startsWith.trans (List.prefix_append _ _)

/-- The first pass puts a header in front of a text without a title. -/
theorem headed_output_of_untitled (pass : Pass) (untitled : titles text = 0)
    : Headed (pass.output text) := by
  obtain ⟨h, block, isHeader, preface, same⟩ := pass.output_eq text
  have left : titles (pass.transformed text).text = 0 := titles_apply untitled
  refine ⟨h, _, same, isHeader, ?_⟩
  rw [preface.untitled, strip_of_untitled left, left]

/-- Where a pass does not displace the header, its edits leave it and bring no title in. -/
theorem text_transformed_of_headed {h body : List Char} (isHeader : IsHeader h)
    (untitled : titles body = 0) (kept : ¬ pass.Displaces (h ++ body))
    : ∃ rest, (pass.transformed (h ++ body)).text = h ++ rest ∧ titles rest = 0 := by
  have before := pass.beforeConstants_append isHeader.quiet body
  have still := pass.titles_beforeConstants untitled
  rw [text_transformed, before]
  split
  case isFalse => exact ⟨_, rfl, still⟩
  case isTrue approved =>
    unfold transform
    split
    case isFalse => exact ⟨_, rfl, still⟩
    case isTrue authorized =>
      have titles := ZoneConstants.titles_rewrite pass.settings pass.facts
        (pass.beforeConstants body)
      refine ⟨_, ZoneConstants.rewrite_append pass.settings isHeader.banner ?_,
        titles.trans still⟩
      intro absent nowhere
      refine kept ⟨isHeader.startsWith.trans (List.prefix_append _ _), approved, authorized, ?_, ?_⟩
      · rwa [before, ZoneConstants.occurs_append isHeader.banner]
      · rw [before, ZoneConstants.start_append isHeader.banner, if_pos nowhere]

/-- Where a pass displaces the header, its edits put the constants in front of it. -/
theorem text_transformed_of_displaces {h body : List Char} (isHeader : IsHeader h)
    (untitled : titles body = 0) (displaces : pass.Displaces (h ++ body))
    : ∃ center area rest, (pass.transformed (h ++ body)).text
        = ZoneConstants.constants pass.settings center area ++ (h ++ rest)
      ∧ titles rest = 0 := by
  have before := pass.beforeConstants_append isHeader.quiet body
  obtain ⟨-, approved, authorized, absent, nowhere⟩ := displaces
  obtain ⟨center, known⟩ : ∃ center, pass.facts.center? = some center :=
    Option.isSome_iff_exists.mp (Bool.and_eq_true_iff.mp authorized).2
  rw [before, ZoneConstants.occurs_append isHeader.banner] at absent
  rw [before, ZoneConstants.start_append isHeader.banner] at nowhere
  have unplaced : ZoneConstants.start (pass.beforeConstants body) = [] := by
    by_contra placed
    rw [if_neg placed] at nowhere
    exact placed (List.append_eq_nil_iff.mp nowhere).2
  refine ⟨center, pass.facts.area?.getD 0.0, pass.beforeConstants body, ?_,
    pass.titles_beforeConstants untitled⟩
  rw [text_transformed, if_pos approved, transform, if_pos authorized, before]
  exact ZoneConstants.rewrite_displaced pass.settings isHeader.banner known absent unplaced

/-- A text that has the constants gets none. -/
theorem text_transformed_of_occurs
    (present : occurs ZoneConstants.centerName.toList (pass.beforeConstants text) = true)
    : (pass.transformed text).text = pass.beforeConstants text := by
  rw [text_transformed]
  unfold transform
  split
  · split
    · exact ZoneConstants.rewrite_of_occurs pass.settings pass.facts present
    · rfl
  · rfl

/-- A header that is not displaced is replaced by the new one. -/
theorem headed_output (headed : Headed text) (kept : ¬ pass.Displaces text)
    : Headed (pass.output text) := by
  obtain ⟨old, body, rfl, isOld, untitled⟩ := headed
  obtain ⟨rest, left, still⟩ := text_transformed_of_headed isOld untitled kept
  obtain ⟨h, block, isHeader, preface, same⟩ := pass.output_eq (old ++ body)
  refine ⟨h, _, same, isHeader, ?_⟩
  rw [preface.untitled, left, isOld.strip_append, titles_dropLineFeeds, still]

/-- A header that is displaced stays behind the constants, and the new one is put before them. -/
theorem buried_output_of_displaces (headed : Headed text) (displaces : pass.Displaces text)
    : Buried (pass.output text) := by
  obtain ⟨old, body, rfl, isOld, untitled⟩ := headed
  obtain ⟨center, area, rest, left, still⟩ :=
    text_transformed_of_displaces isOld untitled displaces
  obtain ⟨h, block, isHeader, preface, same⟩ := pass.output_eq (old ++ body)
  -- the constants stand first, so no header is found that could be left out
  have unheaded : after? openingLines (dropLineFeeds
      (ZoneConstants.constants pass.settings center area ++ (old ++ rest))) = none := by
    obtain ⟨more, begun⟩ := ZoneConstants.constants_begin pass.settings center area
    rw [begun, show openingLines = '/' :: '*' :: openingLines.drop 2 from by decide]
    rfl
  rw [left, strip_of_unheaded unheaded, ← List.append_assoc block] at same
  exact ⟨h, _, old, rest, same, isHeader,
    preface.append (ZoneConstants.constants_preface pass.settings center area),
    occurs_of_infix (ZoneConstants.occurs_constants pass.settings center area)
      (List.suffix_append _ _).isInfix, isOld, still⟩

/-- A displaced header stays where it is. -/
theorem buried_output (pass : Pass) (buried : Buried text)
    : ¬ pass.Displaces text ∧ Buried (pass.output text) := by
  obtain ⟨h, between, old, body, rfl, isHeader, preface, named, isOld, untitled⟩ := buried
  have before : pass.beforeConstants (h ++ (between ++ (old ++ body)))
      = h ++ (between ++ (old ++ pass.beforeConstants body)) := by
    rw [pass.beforeConstants_append isHeader.quiet, pass.beforeConstants_append preface.quiet,
      pass.beforeConstants_append isOld.quiet]
  have present : occurs ZoneConstants.centerName.toList
      (pass.beforeConstants (h ++ (between ++ (old ++ body)))) = true := by
    rw [before]
    exact occurs_of_infix named ⟨h, old ++ pass.beforeConstants body, by simp⟩
  refine ⟨fun displaces => ?_, ?_⟩
  · cases present.symm.trans displaces.absent
  · -- only the first header is left out, and the line feeds before the constants
    obtain ⟨h', block, isHeader', preface', same⟩ :=
      pass.output_eq (h ++ (between ++ (old ++ body)))
    have named' := (ZoneConstants.occurs_dropLineFeeds between).trans named
    have filled : dropLineFeeds between ≠ [] := fun empty => by
      rw [empty] at named'
      cases named'
    rw [text_transformed_of_occurs present, before, isHeader.strip_append,
      dropLineFeeds_append filled, ← List.append_assoc block] at same
    exact ⟨h', _, old, _, same, isHeader', preface'.append preface.dropLineFeeds,
      occurs_of_infix named' (List.suffix_append _ _).isInfix, isOld,
      pass.titles_beforeConstants untitled⟩

-----------------------------------------------------------------------------------------
-- Runs
-----------------------------------------------------------------------------------------

/-- A run over a displaced header leaves it, by induction on the passes. -/
theorem buried_run {passes : List Pass} (buried : Buried text)
    : ¬ Displaced passes text ∧ Buried (run passes text) := by
  induction passes generalizing text with
  | nil => exact ⟨id, buried⟩
  | cons pass rest ih =>
      obtain ⟨kept, stays⟩ := buried_output pass buried
      obtain ⟨later, left⟩ := ih stays
      exact ⟨not_or.mpr ⟨kept, later⟩, left⟩

/-- A run over a text with one header leaves one, unless some pass displaces it, by induction on the
passes.
-/
theorem headed_run (passes : List Pass) (headed : Headed text)
    : (¬ Displaced passes text → Headed (run passes text))
      ∧ (Displaced passes text → Buried (run passes text)) := by
  induction passes generalizing text with
  | nil => exact ⟨fun _ => headed, False.elim⟩
  | cons pass rest ih =>
      by_cases displaces : pass.Displaces text
      · have buried := buried_output_of_displaces headed displaces
        exact ⟨fun never => absurd (.inl displaces) never, fun _ => (buried_run buried).2⟩
      · obtain ⟨kept, displaced⟩ := ih (headed_output headed displaces)
        exact ⟨fun never => kept fun later => never (.inr later),
          fun ever => displaced (ever.resolve_left displaces)⟩

/-- Main statement: what at least one pass leaves of a source without the title line starts with a
header; the title line stands in it once if no pass displaces the header it finds, and twice if
some pass does.
-/
theorem titles_run {source : List Char} (untitled : ¬ HasLine titleLine source)
    (passes : List Pass) (filled : passes ≠ [])
    : openingLines <+: run passes source
      ∧ (¬ Displaced passes source → titles (run passes source) = 1)
      ∧ (Displaced passes source → titles (run passes source) = 2) := by
  have zero : titles source = 0 := titles_eq_zero_iff.mpr untitled
  obtain ⟨pass, rest, rfl⟩ := List.exists_cons_of_ne_nil filled
  -- the source has no header that the first pass could displace
  have first : ¬ pass.Displaces source := fun displaces => by
    obtain ⟨body, same⟩ := displaces.headed
    rw [← same, titles_openingLines] at zero
    omega
  obtain ⟨kept, displaced⟩ :=
    headed_run rest (headed_output_of_untitled pass zero)
  refine ⟨?_, fun never => ?_, fun ever => ?_⟩
  · by_cases ever : Displaced rest (pass.output source)
    · exact (displaced ever).startsWith
    · exact (kept ever).startsWith
  · exact (kept fun later => never (.inr later)).titles_eq
  · exact (displaced (ever.resolve_left first)).titles_eq

/-- A source with all required includes, but none before its code. -/
def lateIncludes : List Char :=
  ("int x;\n#include <stdio.h>\n#include <math.h>\n#include <stdbool.h>\n#include <time.h>\n"
    ++ "#include <stdlib.h>\n#include <string.h>\n").toList

/-- A pass that decides nothing. -/
def idle : Pass where
  settings := .standard
  facts := .conservative
  report := ⟨0.7, []⟩
  explained := nofun

/-- The facts of a small zone. -/
def smallZone : Facts :=
  [("latitude_min", -16.40), ("latitude_max", -16.32), ("longitude_min", -71.60),
    ("longitude_max", -71.52), (Facts.area, 75.0)].foldl
      (fun facts (name, figure) => facts.insert name figure) .empty

/-- What is known of a source in a small zone. -/
def smallInputs : Inputs :=
  ⟨.ofLines 7, smallZone⟩

/-- A pass that approves the constants of a small zone. -/
def approvesConstants : Pass where
  settings := .standard
  facts := smallZone
  report := ⟨0.7, [⟨.zoneConstants, .approved, 0.9,
    Optimization.zoneConstants.explain true smallInputs 0.9⟩]⟩
  explained := by
    intro decision member
    rw [List.mem_singleton.mp member]
    exact ⟨true, smallInputs, 0.9, rfl⟩

theorem lateIncludes_untitled : ¬ HasLine titleLine lateIncludes := by decide +kernel

/-- Where all includes come after code, constants are put in front of the header. -/
theorem displaces_of_late_includes
    : approvesConstants.Displaces (idle.output lateIncludes) where
  headed := by decide +kernel
  approved := by decide +kernel
  authorized := by decide +kernel
  absent := by decide +kernel
  nowhere := by decide +kernel

/-- The run over them leaves a second title behind the constants. -/
theorem stacks_headers_of_late_includes
    : ¬ ∀ source, ¬ HasLine titleLine source → ∀ passes, passes ≠ []
        → openingLines <+: run passes source ∧ titles (run passes source) = 1 := by
  intro single
  have once := (single lateIncludes lateIncludes_untitled [idle, approvesConstants] nofun).2
  have headed : Headed (idle.output lateIncludes) :=
    headed_output_of_untitled idle (titles_eq_zero_iff.mpr lateIncludes_untitled)
  have twice := (buried_output_of_displaces headed displaces_of_late_includes).titles_eq
  exact absurd (once.symm.trans twice) (by decide)

/-- Once and twice: a run that displaces no header, and one that does. -/
theorem titles_run_of_late_includes
    : ¬ HasLine titleLine lateIncludes
      ∧ titles (run [idle] lateIncludes) = 1
      ∧ titles (run [idle, approvesConstants] lateIncludes) = 2 := by
  have first : ¬ Displaced [idle] lateIncludes := by
    rintro (displaces | never)
    · exact absurd displaces.approved (by decide)
    · exact never
  have second : Displaced [idle, approvesConstants] lateIncludes :=
    .inr (.inl displaces_of_late_includes)
  exact ⟨lateIncludes_untitled,
    (titles_run lateIncludes_untitled [idle] nofun).2.1 first,
    (titles_run lateIncludes_untitled [idle, approvesConstants] nofun).2.2 second⟩

end Pass

end RangeTuner
