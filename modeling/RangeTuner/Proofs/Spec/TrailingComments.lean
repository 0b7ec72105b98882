import RangeTuner.Proofs.Spec.Grammar
import RangeTuner.Proofs.Text.Tokens

/-! A comment written behind a directive. A unit goes on with slashes, so a comment that stands
directly behind a precision is read as a part of its unit; behind a blank, a comma, a bracket or
another comment it is read as a comment. Main statement: a comment leaves a directive as it is
exactly when the line does not end in the unit of a precision.
-/

namespace RangeTuner.Spec

open RangeTuner.Text

variable {line text tail : List Char}

-----------------------------------------------------------------------------------------
-- What follows a directive, with a comment behind it
-----------------------------------------------------------------------------------------

/-- Blanks and a note can be followed by blanks and a comment, which goes on with the note where
there is one.
-/
theorem exists_note_append {gap note blanks : List Char} (blank : ∀ c ∈ gap, isBlank c = true)
    (noted : IsTrailingNote note) (blank' : ∀ c ∈ blanks, isBlank c = true) (comment : List Char)
    : ∃ gap' note', gap ++ note ++ (blanks ++ '/' :: '/' :: comment) = gap' ++ note'
      ∧ (∀ c ∈ gap', isBlank c = true) ∧ IsTrailingNote note' := by
  rcases noted with rfl | ⟨first, rfl⟩
  · refine ⟨gap ++ blanks, '/' :: '/' :: comment, ?_, ?_, .inr ⟨comment, rfl⟩⟩
    · rw [List.append_nil, List.append_assoc]
    · exact List.forall_mem_append.mpr ⟨blank, blank'⟩
  · refine ⟨gap, '/' :: '/' :: (first ++ (blanks ++ '/' :: '/' :: comment)), ?_, blank,
      .inr ⟨_, rfl⟩⟩
    rw [List.append_assoc, List.cons_append, List.cons_append]

theorem TrailerText.append_comment {blanks : List Char} (follows : TrailerText tail)
    (blank' : ∀ c ∈ blanks, isBlank c = true) (comment : List Char)
    : TrailerText (tail ++ (blanks ++ '/' :: '/' :: comment)) := by
  cases follows with
  | bare blank noted =>
      obtain ⟨gap, note, same, blank, noted⟩ := exists_note_append blank noted blank' comment
      exact same ▸ .bare blank noted
  | comma front blank noted =>
      obtain ⟨gap, note, same, blank, noted⟩ := exists_note_append blank noted blank' comment
      rw [List.append_assoc, List.cons_append, same]
      exact .comma front blank noted

/-- A range stays the one it is. -/
theorem RangeLine.append_comment {r : RangeDirective} {blanks : List Char}
    (grammar : RangeLine r line) (blank' : ∀ c ∈ blanks, isBlank c = true) (comment : List Char)
    : RangeLine r (line ++ (blanks ++ '/' :: '/' :: comment)) := by
  obtain ⟨ranges, follows, minFinite, maxFinite, ordered, agree⟩ := grammar
  rw [List.append_assoc]
  exact .parts ranges (follows.append_comment blank' comment) minFinite maxFinite ordered agree

-----------------------------------------------------------------------------------------
-- Precisions
-----------------------------------------------------------------------------------------

/-- No name goes on with a blank. -/
theorem isNameRest_of_isBlank {c : Char} (blank : isBlank c = true)
    : Phrase.isNameRest c = false := by
  refine Bool.eq_false_iff.mpr fun named => ?_
  rw [Phrase.isNameRest, Bool.or_eq_true] at named
  rcases named with letter | slash
  · have other : inRanges letterRanges c = false := inRanges_of_apart (by decide) blank
    rw [inRanges_of_isAlphanum letter] at other
    cases other
  · obtain rfl := beq_iff_eq.mp slash
    cases blank

/-- A unit that is followed by slashes goes on with them, as far as a name goes. -/
theorem PrecisionText.append_name {name unit : String} {value : Float} {more : List Char}
    (precise : PrecisionText name value unit text)
    (letters : ∀ c ∈ more, Phrase.isNameRest c = true)
    : PrecisionText name value (.ofList (unit.toList ++ more)) (text ++ more) := by
  obtain ⟨heads, figures, apart, between, first, others, whole, start, members⟩ := precise
  rename_i head number gap
  have named : IsName (.ofList (unit.toList ++ more)) := by
    refine ⟨first, others ++ more, ?_, start, ?_⟩
    · rw [String.toList_ofList, whole, List.cons_append]
    · exact List.forall_mem_append.mpr
        ⟨members, fun c member => Phrase.isNameRest_iff.mp (letters c member)⟩
  have joined := PrecisionText.parts heads figures apart between named
  rw [String.toList_ofList] at joined
  simpa only [List.append_assoc] using joined

/-- A text is a precision in one way only, with one text behind its unit. -/
theorem PrecisionText.unique {name name' unit unit' : String} {value value' : Float}
    {text' tail' : List Char} (precise : PrecisionText name value unit text)
    (ends : ∀ c ∈ tail.head?, Phrase.isNameRest c = false)
    (precise' : PrecisionText name' value' unit' text')
    (ends' : ∀ c ∈ tail'.head?, Phrase.isNameRest c = false) (same : text ++ tail = text' ++ tail')
    : unit = unit' ∧ tail = tail' := by
  have read := Phrase.precision_append precise ends
  rw [same, Phrase.precision_append precise' ends'] at read
  simp only [Except.ok.injEq, Prod.mk.injEq] at read
  exact ⟨read.1.2.2.symm, read.2.symm⟩

/-- Units that count the same are the same. -/
theorem PrecisionUnit.of_inj {unit unit' : String} : of unit = of unit' ↔ unit = unit' := by
  unfold of
  split <;> split <;> simp_all [eq_comm]

/-- The line is a precision and stops with its unit: no blank, comma or comment is behind it. -/
def EndsInUnit (line : List Char) : Prop :=
  ∃ name value unit, PrecisionText name value unit (trimStart line)

/-- A precision that more stands behind stays the one it is. -/
theorem PrecisionLine.append_comment {p : PrecisionDirective} {blanks : List Char}
    (grammar : PrecisionLine p line) (blank' : ∀ c ∈ blanks, isBlank c = true)
    (further : ∀ name value unit, ¬ PrecisionText name value unit (line ++ blanks))
    (comment : List Char)
    : PrecisionLine p (line ++ (blanks ++ '/' :: '/' :: comment)) := by
  obtain ⟨precise, ends, follows, finite⟩ := grammar
  rename_i name unit value text tail
  rw [List.append_assoc]
  refine .parts precise ?_ (follows.append_comment blank' comment) finite
  -- what is behind the unit is not empty, and it stops the unit already
  cases tail with
  | cons d tail => exact ends
  | nil =>
      cases blanks with
      | nil => exact absurd precise (by simpa using further name value unit)
      | cons d blanks =>
          rintro c ⟨⟩
          exact isNameRest_of_isBlank (blank' d List.mem_cons_self)

theorem PrecisionLine.exists_text {p : PrecisionDirective} (grammar : PrecisionLine p line)
    : ∃ unit text tail, p.unit = .of unit ∧ line = text ++ tail
      ∧ PrecisionText p.name p.value unit text
      ∧ ∀ c ∈ tail.head?, Phrase.isNameRest c = false := by
  obtain ⟨precise, ends, -, -⟩ := grammar
  exact ⟨_, _, _, rfl, rfl, precise, ends⟩

/-- A line that is a precision as a whole counts in the unit it stops with. -/
theorem PrecisionLine.unit_eq {p : PrecisionDirective} (grammar : PrecisionLine p line)
    {blanks : List Char} (blank' : ∀ c ∈ blanks, isBlank c = true) {name unit : String}
    {value : Float} (precise : PrecisionText name value unit (line ++ blanks))
    : p.unit = .of unit := by
  obtain ⟨unit', text, tail, counted, rfl, precise', ends⟩ := grammar.exists_text
  have ends' : ∀ c ∈ (tail ++ blanks).head?, Phrase.isNameRest c = false := by
    cases tail with
    | cons d tail => exact ends
    | nil => exact fun c first => isNameRest_of_isBlank (blank' c (List.mem_of_mem_head? first))
  have none : ∀ c ∈ ([] : List Char).head?, Phrase.isNameRest c = false := nofun
  obtain ⟨rfl, -⟩ := precise'.unique ends' precise none (by simp)
  exact counted

/-- A precision that a comment directly follows is no longer the one it was: its unit has become
longer.
-/
theorem PrecisionLine.not_append_comment {p : PrecisionDirective} {blanks : List Char}
    (grammar : PrecisionLine p line) (blank' : ∀ c ∈ blanks, isBlank c = true)
    {name unit : String} {value : Float} (precise : PrecisionText name value unit (line ++ blanks))
    (comment : List Char)
    : ¬ PrecisionLine p (line ++ (blanks ++ '/' :: '/' :: comment)) := by
  intro commented
  obtain ⟨unit', text, tail, counted, same, precise', ends⟩ := commented.exists_text
  obtain ⟨cut, letters, behind⟩ :=
    (Scanner.run_eq_some_iff (p := Phrase.isNameRest) (s := '/' :: '/' :: comment)).mp rfl
  have whole : line ++ blanks ++ ('/' :: '/' :: comment).takeWhile Phrase.isNameRest
      ++ ('/' :: '/' :: comment).dropWhile Phrase.isNameRest = text ++ tail := by
    rw [List.append_assoc, ← cut, List.append_assoc, same]
  obtain ⟨longer, -⟩ := (precise.append_name letters).unique behind precise' ends whole
  have unchanged : unit = unit' :=
    PrecisionUnit.of_inj.mp ((grammar.unit_eq blank' precise).symm.trans counted)
  have lengths := congrArg (fun word => word.toList.length) (longer.trans unchanged.symm)
  simp [Phrase.isNameRest] at lengths

-----------------------------------------------------------------------------------------
-- Comments behind lines
-----------------------------------------------------------------------------------------

/-- A line that is a directive is trimmed with its comment as it is on its own, and only blanks come
between the two.
-/
theorem exists_trim_comment (filled : trim line ≠ []) (comment : List Char)
    : ∃ blanks, trimStart line = trim line ++ blanks ∧ (∀ c ∈ blanks, isBlank c = true)
      ∧ trim (line ++ '/' :: '/' :: comment)
        = trim line ++ (blanks ++ '/' :: '/' :: trimEnd comment) := by
  obtain ⟨blanks, split, blank⟩ := exists_append_dropEndWhile isBlank (trimStart line)
  refine ⟨blanks, split, blank, ?_⟩
  have visible : isBlank '/' = false := by decide
  have cut : trimEnd ('/' :: comment) = '/' :: trimEnd comment :=
    dropEndWhile_append_cons visible [] comment
  rw [trim_append_cons filled visible, cut, ← List.append_assoc]
  exact congrArg (· ++ _) split

/-- Main statement: a comment behind a line leaves its directive as it is exactly when the line does
not stop with the unit of a precision. Ranges are never changed.
-/
theorem comment_keeps_directive {directive : Directive}
    (read : Directive.ofLine? line = some (.ok directive)) (comment : List Char)
    : (Directive.ofLine? (line ++ '/' :: '/' :: comment) = some (.ok directive)
        ↔ ¬ EndsInUnit line)
      ∧ (EndsInUnit line → ∃ p, directive = .precision p) := by
  have grammar : DirectiveLine directive (trim line) := ofTrimmed?_eq_ok_iff.mp read
  have filled : trim line ≠ [] := by
    intro blank
    rw [Directive.ofLine?, blank] at read
    cases read
  obtain ⟨blanks, started, blank, trimmed⟩ := exists_trim_comment filled comment
  rw [Directive.ofLine?, trimmed, ofTrimmed?_eq_ok_iff, EndsInUnit, started]
  cases directive with
  | range r =>
      have noPrecision
          : ¬ ∃ name value unit, PrecisionText name value unit (trim line ++ blanks) := by
        rintro ⟨_, _, _, precise⟩
        exact ((RangeLine.starts grammar).append blanks).unique precise.starts
      exact ⟨iff_of_true (RangeLine.append_comment grammar blank _) noPrecision,
        fun precise => absurd precise noPrecision⟩
  | precision p =>
      refine ⟨⟨fun commented => ?_, fun further => ?_⟩, fun _ => ⟨p, rfl⟩⟩
      · rintro ⟨name, value, unit, precise⟩
        exact PrecisionLine.not_append_comment grammar blank precise _ commented
      · exact PrecisionLine.append_comment grammar blank
          (fun name value unit precise => further ⟨name, value, unit, precise⟩) _

/-- A comment behind a blank leaves a precision in metres as it is. -/
theorem comment_keeps_altitude
    : Directive.ofLine? "precision altitude == 1.0 meters ".toList
          = some (.ok (.precision ⟨"altitude", 1.0, .named "meters"⟩))
      ∧ Directive.ofLine? ("precision altitude == 1.0 meters ".toList ++ '/' :: '/' :: ['c'])
          = some (.ok (.precision ⟨"altitude", 1.0, .named "meters"⟩))
      ∧ ¬ EndsInUnit "precision altitude == 1.0 meters ".toList :=
  ⟨rfl, rfl, (comment_keeps_directive rfl ['c']).1.mp rfl⟩

/-- Directly behind a unit, a comment becomes a part of it: the decimal places are none any more. -/
theorem comment_changes_decimal_places
    : ¬ ∀ (line comment : List Char) (directive : Directive), '\n' ∉ comment
        → Directive.ofLine? line = some (.ok directive)
        → Directive.ofLine? (line ++ '/' :: '/' :: comment) = some (.ok directive) := by
  intro kept
  have read : Directive.ofLine? "precision x == 2 decimal_places".toList
      = some (.ok (.precision ⟨"x", 2.0, .decimalPlaces⟩)) := rfl
  have changed : Directive.ofLine? ("precision x == 2 decimal_places".toList ++ '/' :: '/' :: ['c'])
      = some (.ok (.precision ⟨"x", 2.0, .named "decimal_places//c"⟩)) := rfl
  cases changed.symm.trans (kept _ ['c'] _ (by decide) read)

end RangeTuner.Spec
