import RangeTuner.Proofs.Rewrite.ConstantsPlace
import RangeTuner.Proofs.Rewrite.Tame

/-! The text of zone constants and of texts that have them put in. The constants are lines that no
template touches and none of which is the title line. Main statements: putting them in changes
the number of title lines in no text, and in a text behind a comment they go where they would go
without it, or before it.
-/

namespace RangeTuner.Rewrite

open RangeTuner.Decimal RangeTuner.Text RangeTuner.Spec

-----------------------------------------------------------------------------------------
-- How often the title stands
-----------------------------------------------------------------------------------------

/-- The number of lines of a text that are the title line. -/
def titles (text : List Char) : Nat :=
  (text.splitOn '\n').count titleLine

theorem titles_eq_zero_iff {text : List Char}
    : titles text = 0 ↔ ¬ HasLine titleLine text :=
  List.count_eq_zero

/-- The titles of a text that is cut at a line feed are those of its parts. -/
theorem titles_append_feed (s t : List Char)
    : titles (s ++ '\n' :: t) = titles s + titles t := by
  rw [titles, splitOn_append_feed, List.count_append]
  rfl

/-- Of lines that a text starts with, those that are the title are counted. -/
theorem titles_lines_append {lines : List (List Char)} (unbroken : ∀ l ∈ lines, '\n' ∉ l)
    (t : List Char)
    : titles (lines.flatMap (· ++ ['\n']) ++ t) = lines.count titleLine + titles t := by
  rw [titles, splitOn_lines_append unbroken, List.count_append]
  rfl

theorem titles_nil : titles [] = 0 := by decide

theorem titles_feed (t : List Char) : titles ('\n' :: t) = titles t := by
  rw [← List.nil_append ('\n' :: t), titles_append_feed, titles_nil, Nat.zero_add]

theorem titles_dropLineFeeds (t : List Char)
    : titles (Provenance.dropLineFeeds t) = titles t := by
  induction t with
  | nil => rfl
  | cons c t ih =>
      by_cases feed : c = '\n'
      · subst feed
        rw [titles_feed, ← ih]
        rfl
      · simp [Provenance.dropLineFeeds, feed]

-----------------------------------------------------------------------------------------
-- Prefaces
-----------------------------------------------------------------------------------------

/-- Whole lines that no template touches and none of which is the title. -/
structure Preface (s : List Char) : Prop where
  quiet : Quiet calm s
  untitled : ∀ t, titles (s ++ t) = titles t

/-- A text that differs from a word before either of them ends is another one. -/
theorem ne_of_clashes {word s : List Char} (clash : clashes word s = true)
    : word ≠ s := by
  rintro rfl
  induction word with
  | nil => cases clash
  | cons c word ih => exact ih (by simpa [clashes] using clash)

/-- The end of a line in which no hit starts. -/
structure LineTail (l : List Char) : Prop where
  quiet : Quiet calm (l ++ ['\n'])
  unbroken : '\n' ∉ l

instance (l : List Char) : Decidable (LineTail l) :=
  decidable_of_iff (Quiet calm (l ++ ['\n']) ∧ '\n' ∉ l)
    ⟨fun ⟨quiet, unbroken⟩ => ⟨quiet, unbroken⟩, fun ⟨quiet, unbroken⟩ => ⟨quiet, unbroken⟩⟩

namespace LineTail

variable {l s : List Char}

theorem append (tail : LineTail l) (tame : Tame ['\n'] s)
    : LineTail (s ++ l) := by
  refine ⟨?_, List.not_mem_append (fun feed => tame.free _ feed (by simp)) tail.unbroken⟩
  rw [List.append_assoc]
  exact tame.quiet.append calm_lasting tail.quiet

theorem number_append (places : Nat) (x : Float) (tail : LineTail l)
    : LineTail ((fixed places x).toList ++ l) := by
  refine ⟨?_, List.not_mem_append (PlanarDistance.no_feed_fixed places x) tail.unbroken⟩
  rw [List.append_assoc]
  have tame : Tame [] (l ++ ['\n']) := ⟨tail.quiet, by simp⟩
  exact (tame.number_append (by decide) places x (by simp)).quiet

theorem number (places : Nat) (x : Float)
    : LineTail (fixed places x).toList := by
  simpa using number_append places x (by decide : LineTail [])

/-- A line that starts unlike the title is another one. -/
theorem append_ne (tame : Tame ['\n'] s) (other : clashes titleLine s = true)
    (tail : LineTail l)
    : LineTail (s ++ l) ∧ titleLine ≠ s ++ l :=
  ⟨tail.append tame, ne_of_clashes (clashes_append other l)⟩

end LineTail

namespace Preface

variable {s t : List Char}

theorem nil : Preface [] :=
  ⟨.nil, fun _ => rfl⟩

theorem append (first : Preface s) (second : Preface t)
    : Preface (s ++ t) :=
  ⟨first.quiet.append calm_lasting second.quiet, fun u => by
    rw [List.append_assoc, first.untitled, second.untitled]⟩

theorem of_lines (lines : List (List Char))
    (each : ∀ l ∈ lines, LineTail l ∧ titleLine ≠ l)
    : Preface (lines.flatMap (· ++ ['\n'])) := by
  refine ⟨Quiet.flatMap calm_lasting fun l member => (each l member).1.quiet, fun t => ?_⟩
  rw [titles_lines_append fun l member => (each l member).1.unbroken,
    List.count_eq_zero.mpr fun member => (each _ member).2 rfl, Nat.zero_add]

/-- The line feeds at its start can be left out, by induction on them. -/
theorem dropLineFeeds (preface : Preface s)
    : Preface (Provenance.dropLineFeeds s) := by
  induction s with
  | nil => exact preface
  | cons c s ih =>
      by_cases feed : c = '\n'
      · subst feed
        refine ih ⟨⟨?_, ?_⟩, fun t => ?_⟩
        · have within := preface.quiet.within
          simp only [quietFrom, Bool.and_eq_true] at within
          rw [quietFrom_congr (by decide : (none : Option Char).any isWord
            = (some '\n').any isWord)]
          exact within.2
        · have ends := preface.quiet.ends
          rw [List.getLast?_cons] at ends
          cases last : s.getLast? with
          | none => rfl
          | some c => simpa [last] using ends
        · exact (titles_feed (s ++ t)).symm.trans (preface.untitled t)
      · simpa [Provenance.dropLineFeeds, feed] using preface

end Preface

end RangeTuner.Rewrite

namespace RangeTuner.Rewrite.ZoneConstants

open RangeTuner.Decimal RangeTuner.Text RangeTuner.Spec

variable (settings : Settings) (center : Float × Float) (area : Float)

/-- The constants are a blank line and lines without hits that are not the title. -/
theorem constants_eq
    : ∃ lines : List String,
        constants settings center area
            = '\n' :: lines.flatMap (fun line => line.toList ++ ['\n'])
          ∧ (∀ line ∈ lines, LineTail line.toList ∧ titleLine ≠ line.toList)
          ∧ ∃ line ∈ lines, centerName.toList <:+: line.toList := by
  obtain ⟨latitude, longitude⟩ := center
  have blankFirst : ∀ lines : List String,
      ("" :: lines).flatMap (fun line => line.toList ++ ['\n'])
        = '\n' :: lines.flatMap (fun line => line.toList ++ ['\n']) := fun _ => rfl
  refine ⟨_, blankFirst _, ?_, ?named⟩
  case named =>
    refine ⟨"#define " ++ centerName ++ "  " ++ fixed 6 latitude,
      List.mem_cons_of_mem _ (List.mem_cons_of_mem _ List.mem_cons_self),
      "#define ".toList, "  ".toList ++ (fixed 6 latitude).toList, ?_⟩
    simp only [String.toList_append, List.append_assoc]
  have define : ∀ (name : String) (places : Nat) (x : Float), Tame ['\n'] name.toList
      → clashes titleLine name.toList = true
      → LineTail (name ++ fixed places x).toList
        ∧ titleLine ≠ (name ++ fixed places x).toList := by
    intro name places x tame other
    rw [String.toList_append]
    exact LineTail.append_ne tame other (.number places x)
  simp only [List.forall_mem_cons]
  refine ⟨?_, ?_, ?_, ?_, ?_, ?_, ?_, ?_, ?_, ?_⟩
  · exact ⟨by decide +kernel, ne_of_clashes (by decide +kernel)⟩
  · simp only [String.toList_append, List.append_assoc]
    refine LineTail.append_ne (by decide +kernel) (by decide +kernel) (.number_append 6 _ ?_)
    refine .append (.number_append 6 _ (.append (.number_append 1 _ ?_) ?_)) ?_
    all_goals decide +kernel
  · exact define _ 6 latitude (by decide +kernel) (by decide +kernel)
  · exact define _ 6 longitude (by decide +kernel) (by decide +kernel)
  · exact define _ 6 _ (by decide +kernel) (by decide +kernel)
  · exact define _ 6 _ (by decide +kernel) (by decide +kernel)
  · exact define _ 1 _ (by decide +kernel) (by decide +kernel)
  · exact define _ 1 _ (by decide +kernel) (by decide +kernel)
  · decide
  · exact fun _ => nofun

/-- After their blank line the constants start with a line comment. -/
theorem constants_begin
    : ∃ rest, constants settings center area = '\n' :: '/' :: '/' :: rest := by
  obtain ⟨latitude, longitude⟩ := center
  have comment : ("// " ++ tag ++ " precomputed zone constants").toList
      = '/' :: '/' :: (" " ++ tag ++ " precomputed zone constants").toList := by
    decide +kernel
  have first : ∀ lines : List String,
      ("" :: ("// " ++ tag ++ " precomputed zone constants") :: lines).flatMap
          (fun line => line.toList ++ ['\n'])
        = '\n' :: '/' :: '/' :: ((" " ++ tag ++ " precomputed zone constants").toList ++ ['\n']
          ++ lines.flatMap (fun line => line.toList ++ ['\n'])) := by
    intro lines
    rw [List.flatMap_cons, List.flatMap_cons, comment]
    rfl
  exact ⟨_, first _⟩

/-- The constants are a preface. -/
theorem constants_preface : Preface (constants settings center area) := by
  obtain ⟨lines, same, each, -⟩ := constants_eq settings center area
  rw [same]
  refine Preface.append (s := ['\n']) ⟨by decide, titles_feed⟩ ?_
  have whole := Preface.of_lines (lines.map String.toList)
    (List.forall_mem_map.mpr each)
  rwa [List.flatMap_map] at whole

/-- The constants are known by the name of the first. -/
theorem occurs_constants : occurs centerName.toList (constants settings center area) = true := by
  obtain ⟨lines, same, -, line, member, named⟩ := constants_eq settings center area
  obtain ⟨before, after, rfl⟩ := List.append_of_mem member
  rw [occurs_iff_isInfix, same]
  refine named.trans ⟨'\n' :: before.flatMap (fun line => line.toList ++ ['\n']),
    '\n' :: after.flatMap (fun line => line.toList ++ ['\n']), ?_⟩
  simp

/-- The constants start with a blank line, so they change the number of titles nowhere. -/
theorem titles_append_constants (s t : List Char)
    : titles (s ++ (constants settings center area ++ t)) = titles s + titles t := by
  have alone := (constants_preface settings center area).untitled t
  obtain ⟨lines, same, -⟩ := constants_eq settings center area
  rw [same, List.cons_append] at alone ⊢
  rw [titles_append_feed, ← alone, titles_feed]

-----------------------------------------------------------------------------------------
-- Texts with the constants put in
-----------------------------------------------------------------------------------------

/-- A text that is cut where a line ends has the titles of its parts. -/
theorem titles_append_of_endsLine {s t : List Char} (ends : EndsLine s t)
    : titles (s ++ t) = titles s + titles t := by
  rcases ends with rfl | rfl | ⟨r, rfl⟩
  · rw [List.append_nil, titles_nil, Nat.add_zero]
  · rw [List.nil_append, titles_nil, Nat.zero_add]
  · rw [List.append_assoc, List.singleton_append, titles_append_feed, titles_append_feed,
      titles_nil, Nat.add_zero]

/-- Main statement: putting the constants in changes the number of titles in no text. -/
theorem titles_rewrite (facts : Facts) (text : List Char)
    : titles (rewrite settings facts text) = titles text := by
  -- the constants come between two lines, and so do the line feeds that are left out after them
  obtain ⟨rest, whole, ends⟩ := start_endsLine text
  unfold rewrite
  split
  · rfl
  · split
    next => rfl
    next center _ =>
      have after : text.drop (start text).length = rest := by
        conv => lhs; arg 2; rw [whole]
        exact List.drop_left
      have dropped : titles (rest.dropWhile (· == '\n')) = titles rest :=
        titles_dropLineFeeds rest
      simp only [after]
      rw [List.append_assoc, titles_append_constants, dropped, ← titles_append_of_endsLine ends,
        ← whole]

/-- A text that has the constants is left. -/
theorem rewrite_of_occurs (facts : Facts) {text : List Char}
    (present : occurs centerName.toList text = true)
    : rewrite settings facts text = text := by
  rw [rewrite, if_pos present]

variable {h : List Char}

/-- The constants do not start where the first letter of their name does not stand. -/
theorem occurs_append_of_absent (absent : 'G' ∉ h) (t : List Char)
    : occurs centerName.toList (h ++ t) = occurs centerName.toList t := by
  have name : centerName.toList = 'G' :: "EO_ZONE_LAT_CENTER".toList := by decide
  rw [Bool.eq_iff_iff, occurs_iff_isInfix, occurs_iff_isInfix, name]
  constructor
  · exact infix_of_append_left absent
  · exact fun within => within.trans (List.suffix_append h t).isInfix

/-- A banner does not have the constants. -/
theorem occurs_append (banner : Banner h) (t : List Char)
    : occurs centerName.toList (h ++ t) = occurs centerName.toList t :=
  occurs_append_of_absent banner.no_constants t

/-- Line feeds at the start of a text do not matter for whether it has the constants. -/
theorem occurs_dropLineFeeds (text : List Char)
    : occurs centerName.toList (Provenance.dropLineFeeds text)
      = occurs centerName.toList text := by
  have feeds : 'G' ∉ text.takeWhile (· == '\n') := fun member => by
    simpa using List.all_eq_true.mp List.all_takeWhile _ member
  conv => rhs; rw [← List.takeWhile_append_dropWhile (p := (· == '\n')) (l := text)]
  exact (occurs_append_of_absent feeds _).symm

/-- A banner stays first where a directive before any code takes the constants. -/
theorem rewrite_append (banner : Banner h) {facts : Facts} {t : List Char}
    (placed : occurs centerName.toList t = false → start t ≠ [])
    : rewrite settings facts (h ++ t) = h ++ rewrite settings facts t := by
  unfold rewrite
  rw [occurs_append banner]
  split
  · rfl
  next absent =>
    have somewhere := placed (by simpa using absent)
    rw [start_append banner, if_neg somewhere]
    split
    · rfl
    · have after : (h ++ t).drop (h ++ start t).length = t.drop (start t).length := by
        rw [List.length_append, List.drop_length_add_append]
      simp only [after, List.append_assoc]

/-- The constants come before a banner where no directive before any code takes them. -/
theorem rewrite_displaced (banner : Banner h) {facts : Facts} {center : Float × Float}
    {t : List Char} (known : facts.center? = some center)
    (absent : occurs centerName.toList t = false) (nowhere : start t = [])
    : rewrite settings facts (h ++ t)
      = constants settings center (facts.area?.getD 0.0) ++ (h ++ t) := by
  obtain ⟨inner, same, -⟩ := banner.comment
  have begins : (h ++ t).dropWhile (· == '\n') = h ++ t := by
    rw [same]
    exact List.dropWhile_cons_of_neg (by decide)
  unfold rewrite
  rw [occurs_append banner, absent, if_neg (by decide), start_append banner, if_pos nowhere]
  simp only [known]
  rw [List.nil_append, List.length_nil, List.drop_zero, begins]

end RangeTuner.Rewrite.ZoneConstants
