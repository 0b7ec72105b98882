import RangeTuner.Proofs.Decimal.Comparison
import RangeTuner.Proofs.Spec.Phrases
import RangeTuner.Proofs.Text.Trimming

/-! The grammar of directives. A line is a directive when its parts, what follows them and the
conditions on its figures are as the grammar has them, told without any order of reading. Main
statement: the lines that are read as ranges are those of the grammar, with exactly the figures
that stand there, and the other lines are faults where they start as a range.
-/

namespace RangeTuner.Spec

open RangeTuner.Decimal RangeTuner.Text

-----------------------------------------------------------------------------------------
-- What may follow a directive
-----------------------------------------------------------------------------------------

/-- Nothing, or a line comment. -/
def IsTrailingNote (note : List Char) : Prop :=
  note = [] ∨ ∃ comment, note = '/' :: '/' :: comment

/-- What may follow a directive: a comma and a line comment, with blanks before either. -/
inductive TrailerText : List Char → Prop
  | bare {gap note : List Char} (blank : ∀ c ∈ gap, isBlank c = true) (noted : IsTrailingNote note)
    : TrailerText (gap ++ note)
  | comma {before gap note : List Char} (front : ∀ c ∈ before, isBlank c = true)
    (blank : ∀ c ∈ gap, isBlank c = true) (noted : IsTrailingNote note)
    : TrailerText (before ++ ',' :: (gap ++ note))

theorem IsTrailingNote.trimStart {note : List Char} (noted : IsTrailingNote note)
    : trimStart note = note := by
  rcases noted with rfl | ⟨comment, rfl⟩ <;> rfl

theorem isTrailingNote_iff {note : List Char}
    : (note.isEmpty || (after? ['/', '/'] note).isSome) = true ↔ IsTrailingNote note := by
  simp [IsTrailingNote, Option.isSome_iff_exists, after?_eq_some_iff]

/-- What follows a directive is accepted where its comma, if there is one, and its note stand. -/
theorem trailer_eq_ok_iff {rest : List Char} : trailer rest = .ok () ↔ TrailerText rest := by
  obtain ⟨before, whole, front⟩ := exists_append_trimStart rest
  have accepted (s : List Char)
      : (if s.isEmpty || (after? ['/', '/'] s).isSome then Except.ok () else .error (.trailing s))
          = (.ok () : Except Deviation Unit) ↔ IsTrailingNote s := by
    rw [← isTrailingNote_iff]
    split <;> simp_all
  refine (accepted _).trans ⟨fun noted => ?_, fun follows => ?_⟩
  · cases found : after? [','] (trimStart rest) with
    | none =>
        rw [found, Option.getD_none, trimStart_trimStart] at noted
        exact whole ▸ .bare front noted
    | some behind =>
        obtain ⟨gap, split, blank⟩ := exists_append_trimStart behind
        rw [found, Option.getD_some] at noted
        rw [whole, after?_eq_some_iff.mp found, split]
        show TrailerText (before ++ ',' :: (gap ++ trimStart behind))
        exact .comma front blank noted
  · cases follows with
    | bare blank noted =>
        rename_i gap note
        have unmarked : after? [','] note = none := by
          rcases noted with rfl | ⟨comment, rfl⟩ <;> rfl
        rw [trimStart_blanks_append blank, noted.trimStart, unmarked, Option.getD_none,
          noted.trimStart]
        exact noted
    | comma front blank noted =>
        rename_i before gap note
        have marked : after? [','] (',' :: (gap ++ note)) = some (gap ++ note) := rfl
        rw [trimStart_blanks_append front, trimStart_cons (by decide), marked, Option.getD_some,
          trimStart_blanks_append blank, noted.trimStart]
        exact noted

-----------------------------------------------------------------------------------------
-- Lines of the grammar
-----------------------------------------------------------------------------------------

/-- The line starts with the keyword and a gap. -/
def Starts (keyword : Keyword) (line : List Char) : Prop :=
  ∃ gap rest, (gap = ' ' ∨ gap = '\t') ∧ line = keyword.text.toList ++ gap :: rest

/-- A line of a range: two bounds in order and finite, with one unit at most. -/
inductive RangeLine : RangeDirective → List Char → Prop
  | parts {name : String} {min max : Float} {minUnit maxUnit : Option String}
    {text tail : List Char} (ranges : RangeText name (min, minUnit) (max, maxUnit) text)
    (follows : TrailerText tail) (minFinite : min.isFinite = true) (maxFinite : max.isFinite = true)
    (ordered : min ≤ max) (agree : ∀ a b, minUnit = some a → maxUnit = some b → a = b)
    : RangeLine ⟨name, min, max, minUnit.or maxUnit⟩ (text ++ tail)

/-- What a precision counts when it is declared in this unit. -/
def PrecisionUnit.of (unit : String) : PrecisionUnit :=
  if unit = "decimal_places" then .decimalPlaces else .named unit

/-- A line of a precision: a finite number with a unit that ends where it stands. -/
inductive PrecisionLine : PrecisionDirective → List Char → Prop
  | parts {name unit : String} {value : Float} {text tail : List Char}
    (precise : PrecisionText name value unit text)
    (ends : ∀ c ∈ tail.head?, Phrase.isNameRest c = false) (follows : TrailerText tail)
    (finite : value.isFinite = true)
    : PrecisionLine ⟨name, value, .of unit⟩ (text ++ tail)

theorem startsWith_iff {keyword : Keyword} {line : List Char}
    : startsWith keyword line = true ↔ Starts keyword line := by
  unfold startsWith
  constructor
  · intro started
    split at started
    · next gap rest behind =>
        exact ⟨gap, rest, Phrase.isGap_iff.mp started, after?_eq_some_iff.mp behind⟩
    · cases started
  · rintro ⟨gap, rest, isGap, rfl⟩
    rw [after?_eq_some_iff.mpr rfl]
    exact Phrase.isGap_iff.mpr isGap

/-- No line starts with both keywords. -/
theorem Starts.unique {line : List Char} (ranges : Starts .range line)
    : ¬ Starts .precision line := by
  rintro ⟨gap, rest, -, same⟩
  obtain ⟨gap', rest', -, rfl⟩ := ranges
  simp [Keyword.text] at same

theorem Starts.append {keyword : Keyword} {line : List Char} (starts : Starts keyword line)
    (tail : List Char)
    : Starts keyword (line ++ tail) := by
  obtain ⟨gap, rest, isGap, rfl⟩ := starts
  exact ⟨gap, rest ++ tail, isGap, by rw [List.append_assoc, List.cons_append]⟩

theorem Heading.starts {keyword : Keyword} {name : String} {text : List Char}
    (heads : Heading keyword name text)
    : Starts keyword text := by
  obtain ⟨apart, between, -, -, -⟩ := heads
  rename_i gap before after
  obtain ⟨first, gap, rfl⟩ := List.exists_cons_of_ne_nil apart
  exact ⟨first, gap ++ _, between first List.mem_cons_self, rfl⟩

theorem RangeText.starts {name : String} {low high : Float × Option String} {text : List Char}
    (ranges : RangeText name low high text)
    : Starts .range text := by
  obtain ⟨heads, -, -⟩ := ranges
  exact heads.starts.append _

theorem PrecisionText.starts {name unit : String} {value : Float} {text : List Char}
    (precise : PrecisionText name value unit text)
    : Starts .precision text := by
  obtain ⟨heads, -, -, -, -⟩ := precise
  exact heads.starts.append _

theorem RangeLine.starts {r : RangeDirective} {line : List Char} (grammar : RangeLine r line)
    : Starts .range line := by
  obtain ⟨ranges, -, -, -, -, -⟩ := grammar
  exact ranges.starts.append _

theorem PrecisionLine.starts {p : PrecisionDirective} {line : List Char}
    (grammar : PrecisionLine p line)
    : Starts .precision line := by
  obtain ⟨precise, -, -, -⟩ := grammar
  exact precise.starts.append _

-----------------------------------------------------------------------------------------
-- Reading lines
-----------------------------------------------------------------------------------------

theorem parts_eq_ok_iff {α : Type} {keyword : Keyword} {phrase : Phrase α} {line : List Char}
    {found : α}
    : parts keyword phrase line = .ok found
      ↔ ∃ rest, phrase line = .ok (found, rest) ∧ TrailerText rest := by
  unfold parts
  cases read : phrase line with
  | error rest => simp
  | ok result =>
      obtain ⟨found', rest⟩ := result
      cases follows : trailer rest with
      | error deviation => simp [follows, ← trailer_eq_ok_iff]
      | ok => simp [follows, ← trailer_eq_ok_iff]

/-- Two bounds make a range when they are finite, in order, and agree on the unit. -/
theorem ofParts_range_eq_ok_iff {name : String} {low high : Float × Option String}
    {r : RangeDirective}
    : RangeDirective.ofParts name low high = .ok r
      ↔ low.1.isFinite = true ∧ high.1.isFinite = true ∧ low.1 ≤ high.1
        ∧ (∀ a b, low.2 = some a → high.2 = some b → a = b)
        ∧ r = ⟨name, low.1, high.1, low.2.or high.2⟩ := by
  obtain ⟨min, minUnit⟩ := low
  obtain ⟨max, maxUnit⟩ := high
  unfold RangeDirective.ofParts
  by_cases finite : min.isFinite = true ∧ max.isFinite = true
  · obtain ⟨minFinite, maxFinite⟩ := finite
    rw [float_le_iff_not_lt minFinite maxFinite]
    by_cases inverted : max < min
    · have noRange (fault : DirectiveError) : ¬ .error fault = Except.ok r := nofun
      cases minUnit <;> cases maxUnit <;> simp [minFinite, maxFinite, inverted]
      split <;> exact noRange _
    · cases minUnit <;> cases maxUnit <;> simp [minFinite, maxFinite, inverted, eq_comm]
      split <;> simp_all
  · have infinite : (!min.isFinite || !max.isFinite) = true := by
      simpa [Classical.or_iff_not_imp_left] using finite
    rw [if_pos infinite]
    exact ⟨nofun, fun ⟨minFinite, maxFinite, _⟩ => absurd ⟨minFinite, maxFinite⟩ finite⟩

theorem ofParts_precision_eq_ok_iff {name unit : String} {value : Float} {p : PrecisionDirective}
    : PrecisionDirective.ofParts name value unit = .ok p
      ↔ value.isFinite = true ∧ p = ⟨name, value, .of unit⟩ := by
  unfold PrecisionDirective.ofParts PrecisionUnit.of
  cases finite : value.isFinite <;> simp [eq_comm]

/-- The parts of a range, checked, are a range of the grammar and nothing else. -/
theorem readRange_eq_ok_iff {line : List Char} {r : RangeDirective}
    : (parts .range Phrase.range line).bind
        (fun (name, low, high) => RangeDirective.ofParts name low high) = .ok r
      ↔ RangeLine r line := by
  constructor
  · intro read
    cases split : parts .range Phrase.range line with
    | error fault => simp [split, Except.bind] at read
    | ok found =>
        obtain ⟨name, ⟨min, minUnit⟩, max, maxUnit⟩ := found
        rw [split] at read
        obtain ⟨minFinite, maxFinite, ordered, agree, rfl⟩ := ofParts_range_eq_ok_iff.mp read
        obtain ⟨tail, ranges, follows⟩ := parts_eq_ok_iff.mp split
        obtain ⟨text, rfl, written⟩ := Phrase.exists_rangeText ranges minFinite maxFinite
        exact .parts written follows minFinite maxFinite ordered agree
  · rintro ⟨ranges, follows, minFinite, maxFinite, ordered, agree⟩
    rw [parts_eq_ok_iff.mpr ⟨_, Phrase.range_append ranges _, follows⟩]
    exact ofParts_range_eq_ok_iff.mpr ⟨minFinite, maxFinite, ordered, agree, rfl⟩

/-- The parts of a precision, checked, are a precision of the grammar and nothing else. -/
theorem readPrecision_eq_ok_iff {line : List Char} {p : PrecisionDirective}
    : (parts .precision Phrase.precision line).bind
        (fun (name, value, unit) => PrecisionDirective.ofParts name value unit) = .ok p
      ↔ PrecisionLine p line := by
  constructor
  · intro read
    cases split : parts .precision Phrase.precision line with
    | error fault => simp [split, Except.bind] at read
    | ok found =>
        obtain ⟨name, value, unit⟩ := found
        rw [split] at read
        obtain ⟨finite, rfl⟩ := ofParts_precision_eq_ok_iff.mp read
        obtain ⟨tail, precise, follows⟩ := parts_eq_ok_iff.mp split
        obtain ⟨text, rfl, written, ends⟩ := Phrase.exists_precisionText precise finite
        exact .parts written ends follows finite
  · rintro ⟨precise, ends, follows, finite⟩
    rw [parts_eq_ok_iff.mpr ⟨_, Phrase.precision_append precise ends, follows⟩]
    exact ofParts_precision_eq_ok_iff.mpr ⟨finite, rfl⟩

/-- A line that starts as a range is read as one or is a fault. -/
theorem ofTrimmed?_of_range {line : List Char} (ranges : Starts .range line)
    : Directive.ofTrimmed? line
      = some (((parts .range Phrase.range line).bind
          fun (name, low, high) => RangeDirective.ofParts name low high).map .range) := by
  rw [Directive.ofTrimmed?, if_pos (startsWith_iff.mpr ranges)]
  cases parts .range Phrase.range line with
  | error fault => rfl
  | ok found =>
      obtain ⟨name, low, high⟩ := found
      cases checked : RangeDirective.ofParts name low high <;>
        simp [bind, Except.bind, Except.map, checked, pure, Except.pure]

/-- A line that starts as a precision is read as one or is a fault. -/
theorem ofTrimmed?_of_precision {line : List Char} (precise : Starts .precision line)
    : Directive.ofTrimmed? line
      = some (((parts .precision Phrase.precision line).bind
          fun (name, value, unit) => PrecisionDirective.ofParts name value unit).map
            .precision) := by
  have noRange : ¬ startsWith .range line = true := fun started =>
    (startsWith_iff.mp started).unique precise
  rw [Directive.ofTrimmed?, if_neg noRange, if_pos (startsWith_iff.mpr precise)]
  cases parts .precision Phrase.precision line with
  | error fault => rfl
  | ok found =>
      obtain ⟨name, value, unit⟩ := found
      cases checked : PrecisionDirective.ofParts name value unit <;>
        simp [bind, Except.bind, Except.map, checked, pure, Except.pure]

/-- A line of the grammar, of either kind. -/
def DirectiveLine : Directive → List Char → Prop
  | .range r => RangeLine r
  | .precision p => PrecisionLine p

theorem ofTrimmed?_eq_none_iff {line : List Char}
    : Directive.ofTrimmed? line = none ↔ ¬ Starts .range line ∧ ¬ Starts .precision line := by
  rw [← startsWith_iff, ← startsWith_iff]
  unfold Directive.ofTrimmed?
  split
  · next ranges => simp [ranges]
  · next noRange => simp [noRange]

/-- A line is read as a directive exactly when the grammar has it as this one, by cases on how it
starts.
-/
theorem ofTrimmed?_eq_ok_iff {line : List Char} {directive : Directive}
    : Directive.ofTrimmed? line = some (.ok directive) ↔ DirectiveLine directive line := by
  have mapped {α β : Type} {f : α → β} {e : Except DirectiveError α} {b : β}
      : some (e.map f) = some (.ok b) ↔ ∃ a, e = .ok a ∧ f a = b := by
    cases e <;> simp [Except.map]
  by_cases ranges : Starts .range line
  · rw [ofTrimmed?_of_range ranges, mapped]
    simp only [readRange_eq_ok_iff]
    cases directive with
    | range r => simp [DirectiveLine]
    | precision p => simpa [DirectiveLine] using fun grammar => ranges.unique grammar.starts
  · by_cases precise : Starts .precision line
    · rw [ofTrimmed?_of_precision precise, mapped]
      simp only [readPrecision_eq_ok_iff]
      cases directive with
      | range r => simpa [DirectiveLine] using fun grammar => ranges grammar.starts
      | precision p => simp [DirectiveLine]
    · rw [ofTrimmed?_eq_none_iff.mpr ⟨ranges, precise⟩]
      refine ⟨nofun, fun grammar => ?_⟩
      cases directive with
      | range r => exact absurd (RangeLine.starts grammar) ranges
      | precision p => exact absurd (PrecisionLine.starts grammar) precise

/-- Main statement: a line is read as a range exactly when its trimmed text is a range of the
grammar, with the name, the bounds and the unit that stand there. It is no directive exactly when
it starts with neither keyword, and it is a fault when it starts as a range and is none.
-/
theorem ofLine?_follows_grammar (line : List Char)
    : (∀ r, Directive.ofLine? line = some (.ok (.range r)) ↔ RangeLine r (trim line))
      ∧ (Directive.ofLine? line = none
          ↔ ¬ Starts .range (trim line) ∧ ¬ Starts .precision (trim line))
      ∧ (Starts .range (trim line) → (∀ r, ¬ RangeLine r (trim line))
          → ∃ fault, Directive.ofLine? line = some (.error fault)) := by
  refine ⟨fun r => ofTrimmed?_eq_ok_iff, ofTrimmed?_eq_none_iff, fun ranges outside => ?_⟩
  rw [Directive.ofLine?, ofTrimmed?_of_range ranges]
  cases read : (parts .range Phrase.range (trim line)).bind
      fun (name, low, high) => RangeDirective.ofParts name low high with
  | error fault => exact ⟨fault, rfl⟩
  | ok r => exact absurd (readRange_eq_ok_iff.mp read) (outside r)

/-- A line with a comma and a note is a range of the grammar, and one with a word behind it is not,
so that it is a fault.
-/
theorem grammar_of_hdop
    : RangeLine ⟨"hdop", 0.5, 3.0, some "m/s"⟩
        (trim "  range hdop == [0.5 m/s,3e0 ] , // survey ".toList)
      ∧ Starts .range (trim "range hdop == [0.5, 3.0] extra".toList)
      ∧ (∀ r, ¬ RangeLine r (trim "range hdop == [0.5, 3.0] extra".toList))
      ∧ ∃ fault, Directive.ofLine? "range hdop == [0.5, 3.0] extra".toList
          = some (.error fault) := by
  have starts : Starts .range (trim "range hdop == [0.5, 3.0] extra".toList) :=
    ⟨' ', _, .inl rfl, rfl⟩
  have outside : ∀ r, ¬ RangeLine r (trim "range hdop == [0.5, 3.0] extra".toList) :=
    fun r within => nomatch ((ofLine?_follows_grammar _).1 r).mpr within
  exact ⟨((ofLine?_follows_grammar _).1 _).mp rfl, starts, outside,
    (ofLine?_follows_grammar _).2.2 starts outside⟩

end RangeTuner.Spec
