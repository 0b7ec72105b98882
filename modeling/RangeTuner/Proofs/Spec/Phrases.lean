import RangeTuner.Proofs.Decimal.Spelling
import RangeTuner.Spec.Directive

/-! What phrases read. A phrase that goes as far as it can reads a part of the grammar and stops
where the part cannot go on. Main statements: for each part, from gaps and names up to whole
directives, that it is read where it is written and nothing behind it goes on with it, and that
what is read is the part.
-/

namespace RangeTuner.Spec

open RangeTuner.Decimal RangeTuner.Text

-----------------------------------------------------------------------------------------
-- The parts of directives
-----------------------------------------------------------------------------------------

/-- Blanks and tabulators, as many as there are. -/
abbrev AllGaps (s : List Char) : Prop :=
  ∀ c ∈ s, c = ' ' ∨ c = '\t'

/-- A letter or underscore, then letters, digits, underscores and slashes. -/
def IsName (name : String) : Prop :=
  ∃ first rest, name.toList = first :: rest ∧ (first.isAlpha = true ∨ first = '_')
    ∧ ∀ c ∈ rest, c.isAlphanum = true ∨ c = '_' ∨ c = '/'

/-- A decimal literal and the double that it is read as. -/
def Numeral (value : Float) (text : List Char) : Prop :=
  ∃ l : Literal, l.Spelled text ∧ l.toFloat = value

/-- A bound: a number and, behind gaps, its unit, if it has one. Gaps may stand around it. -/
inductive BoundText (value : Float) : Option String → List Char → Prop
  | bare {before number after : List Char} (front : AllGaps before) (figures : Numeral value number)
    (back : AllGaps after)
    : BoundText value none (before ++ (number ++ after))
  | measured {before number gap after : List Char} {unit : String} (front : AllGaps before)
    (figures : Numeral value number) (apart : gap ≠ []) (between : AllGaps gap)
    (named : IsName unit) (back : AllGaps after)
    : BoundText value (some unit) (before ++ (number ++ (gap ++ (unit.toList ++ after))))

/-- The beginning of a directive: its keyword, the name it declares and the sign of equality. -/
inductive Heading (keyword : Keyword) (name : String) : List Char → Prop
  | parts {gap before after : List Char} (apart : gap ≠ []) (between : AllGaps gap)
    (named : IsName name) (front : AllGaps before) (back : AllGaps after)
    : Heading keyword name
        (keyword.text.toList ++ (gap ++ (name.toList ++ (before ++ ("==".toList ++ after)))))

/-- A range directive without what may follow it. -/
inductive RangeText (name : String) (low high : Float × Option String) : List Char → Prop
  | parts {head lower upper : List Char} (heads : Heading .range name head)
    (first : BoundText low.1 low.2 lower) (second : BoundText high.1 high.2 upper)
    : RangeText name low high (head ++ ('[' :: (lower ++ (',' :: (upper ++ [']'])))))

/-- A precision directive without what may follow it. -/
inductive PrecisionText (name : String) (value : Float) (unit : String) : List Char → Prop
  | parts {head number gap : List Char} (heads : Heading .precision name head)
    (figures : Numeral value number) (apart : gap ≠ []) (between : AllGaps gap)
    (named : IsName unit)
    : PrecisionText name value unit (head ++ (number ++ (gap ++ unit.toList)))

namespace Phrase

variable {α β : Type} {s rest : List Char}

-----------------------------------------------------------------------------------------
-- Phrases one after the other
-----------------------------------------------------------------------------------------

/-- Two phrases, one after the other, read something where both do. -/
theorem bind_eq_ok_iff {phrase : Phrase α} {next : α → Phrase β} {found : β}
    : (phrase >>= next) s = .ok (found, rest)
      ↔ ∃ first middle, phrase s = .ok (first, middle) ∧ next first middle = .ok (found, rest) := by
  cases read : phrase s with
  | error stop => simp [bind, StateT.bind, Except.bind, read]
  | ok result => simp [bind, StateT.bind, Except.bind, read, Prod.ext_iff]

/-- A phrase that reads something hands on what it found and the text behind it. -/
theorem bind_of_ok {phrase : Phrase α} {found : α} (read : phrase s = .ok (found, rest))
    (next : α → Phrase β)
    : (phrase >>= next) s = next found rest := by
  simp [bind, StateT.bind, Except.bind, read]

theorem literal_append (text : String) (rest : List Char)
    : literal text (text.toList ++ rest) = .ok ((), rest) := by
  simp only [literal, after?_eq_some_iff.mpr rfl]

theorem literal_eq_ok_iff {text : String}
    : literal text s = .ok ((), rest) ↔ s = text.toList ++ rest := by
  rw [← after?_eq_some_iff]
  unfold literal
  split <;> simp_all

-----------------------------------------------------------------------------------------
-- Gaps and names
-----------------------------------------------------------------------------------------

theorem isGap_iff {c : Char} : isGap c = true ↔ c = ' ' ∨ c = '\t' := by
  simp [isGap]

theorem gaps_append {gap : List Char} (between : AllGaps gap)
    (stops : ∀ c ∈ rest.head?, isGap c = false)
    : gaps (gap ++ rest) = .ok ((), rest) := by
  rw [gaps, (Scanner.span_append (fun c member => isGap_iff.mpr (between c member)) stops).2]

theorem allGaps_takeWhile (s : List Char) : AllGaps (s.takeWhile isGap) :=
  fun c member => isGap_iff.mp (List.all_eq_true.mp List.all_takeWhile c member)

theorem exists_gaps (read : gaps s = .ok ((), rest)) : ∃ gap, s = gap ++ rest ∧ AllGaps gap := by
  obtain ⟨-, rfl⟩ := Prod.mk.inj (Except.ok.inj read)
  exact ⟨s.takeWhile isGap, List.takeWhile_append_dropWhile.symm, allGaps_takeWhile s⟩

theorem gaps1_append {gap : List Char} (apart : gap ≠ []) (between : AllGaps gap)
    (stops : ∀ c ∈ rest.head?, isGap c = false)
    : gaps1 (gap ++ rest) = .ok ((), rest) := by
  obtain ⟨c, gap, rfl⟩ := List.exists_cons_of_ne_nil apart
  obtain ⟨first, others⟩ := List.forall_mem_cons.mp between
  have left := (Scanner.span_append (fun c member => isGap_iff.mpr (others c member)) stops).2
  simp [gaps1, isGap_iff.mpr first, left]

theorem exists_gaps1 (read : gaps1 s = .ok ((), rest))
    : ∃ gap, s = gap ++ rest ∧ gap ≠ [] ∧ AllGaps gap := by
  cases s with
  | nil => cases read
  | cons c s =>
      simp only [gaps1] at read
      split at read
      · next gap =>
          obtain ⟨-, rfl⟩ := Prod.mk.inj (Except.ok.inj read)
          refine ⟨c :: s.takeWhile isGap, ?_, List.cons_ne_nil _ _, ?_⟩
          · rw [List.cons_append, List.takeWhile_append_dropWhile]
          · exact List.forall_mem_cons.mpr ⟨isGap_iff.mp gap, allGaps_takeWhile s⟩
      · cases read

theorem isNameStart_iff {c : Char} : isNameStart c = true ↔ c.isAlpha = true ∨ c = '_' := by
  simp [isNameStart]

theorem isNameRest_iff {c : Char}
    : isNameRest c = true ↔ c.isAlphanum = true ∨ c = '_' ∨ c = '/' := by
  simp [isNameRest, or_assoc]

theorem name_append {word : String} (named : IsName word)
    (stops : ∀ c ∈ rest.head?, isNameRest c = false)
    : name (word.toList ++ rest) = .ok (word, rest) := by
  obtain ⟨first, more, letters, start, members⟩ := named
  obtain ⟨taken, left⟩ :=
    Scanner.span_append (fun c member => isNameRest_iff.mpr (members c member)) stops
  have whole : String.ofList (first :: more) = word := by rw [← letters, String.ofList_toList]
  rw [letters]
  simp only [List.cons_append, name, isNameStart_iff.mpr start, if_true, taken, left, whole]

theorem exists_name {word : String} (read : name s = .ok (word, rest))
    : s = word.toList ++ rest ∧ IsName word ∧ ∀ c ∈ rest.head?, isNameRest c = false := by
  cases s with
  | nil => cases read
  | cons c s =>
      simp only [name] at read
      split at read
      · next start =>
          obtain ⟨rfl, rfl⟩ := Prod.mk.inj (Except.ok.inj read)
          obtain ⟨whole, members, stops⟩ :=
            (Scanner.run_eq_some_iff (p := isNameRest) (s := s)).mp rfl
          refine ⟨?_, ⟨c, s.takeWhile isNameRest, String.toList_ofList, isNameStart_iff.mp start,
            fun d member => isNameRest_iff.mp (members d member)⟩, stops⟩
          rw [String.toList_ofList, List.cons_append, ← whole]
      · cases read

-----------------------------------------------------------------------------------------
-- Numbers and bounds
-----------------------------------------------------------------------------------------

theorem number_append {value : Float} {text : List Char} (figures : Numeral value text)
    (ends : Literal.Ends rest)
    : number (text ++ rest) = .ok (value, rest) := by
  obtain ⟨l, spelled, rfl⟩ := figures
  simp only [number, spelled.ofPrefix? ends]

/-- A finite number is read in figures: the words are for what is not finite. -/
theorem exists_numeral {value : Float} (read : number s = .ok (value, rest))
    (finite : value.isFinite = true)
    : ∃ text, s = text ++ rest ∧ Numeral value text := by
  unfold number at read
  split at read
  · next l after literal =>
      obtain ⟨rfl, rfl⟩ := Prod.mk.inj (Except.ok.inj read)
      obtain ⟨text, whole, spelled⟩ := Literal.exists_spelled literal
      exact ⟨text, whole, l, spelled, rfl⟩
  · have undefined : (0.0 / 0.0 : Float).isFinite = false := by decide +kernel
    have infinite : (1.0 / 0.0 : Float).isFinite = false := by decide +kernel
    split at read
    · obtain ⟨rfl, -⟩ := Prod.mk.inj (Except.ok.inj read)
      cases finite.symm.trans undefined
    · split at read
      · obtain ⟨rfl, -⟩ := Prod.mk.inj (Except.ok.inj read)
        cases finite.symm.trans infinite
      · cases read

theorem optional_eq_ok_iff {phrase : Phrase α} {found : Option α}
    : optional phrase s = .ok (found, rest)
      ↔ (∃ a, found = some a ∧ phrase s = .ok (a, rest))
        ∨ found = none ∧ rest = s ∧ ∃ stop, phrase s = .error stop := by
  unfold optional
  split
  · next a after read => simp [read, eq_comm]
  · next stop unread => simp [unread, eq_comm]

/-- A numeral starts with a digit, a sign or its point. -/
theorem numeral_stops_gaps {value : Float} {text : List Char} (figures : Numeral value text)
    (rest : List Char)
    : ∀ c ∈ (text ++ rest).head?, isGap c = false := by
  obtain ⟨l, spelled, -⟩ := figures
  obtain ⟨c, more, rfl, first⟩ := spelled.exists_cons
  rintro d ⟨⟩
  rcases first with digit | rfl | rfl | rfl
  · refine Bool.eq_false_iff.mpr fun gap => ?_
    rcases isGap_iff.mp gap with rfl | rfl <;> cases digit
  · rfl
  · rfl
  · rfl

theorem name_stops_gaps {word : String} (named : IsName word) (rest : List Char)
    : ∀ c ∈ (word.toList ++ rest).head?, isGap c = false := by
  obtain ⟨first, more, letters, start, -⟩ := named
  rw [letters]
  rintro c ⟨⟩
  refine Bool.eq_false_iff.mpr fun gap => ?_
  rcases isGap_iff.mp gap with rfl | rfl <;> exact absurd start (by decide)

/-- Behind gaps stands what is there without them, or the first gap. -/
theorem forall_head?_gaps {holds : Char → Prop} {gap : List Char} (between : AllGaps gap)
    (blank : holds ' ' ∧ holds '\t') (behind : ∀ c ∈ rest.head?, holds c)
    : ∀ c ∈ (gap ++ rest).head?, holds c := by
  cases gap with
  | nil => exact behind
  | cons d gap =>
      rintro c ⟨⟩
      rcases between d List.mem_cons_self with rfl | rfl
      · exact blank.1
      · exact blank.2

/-- A number ends at a gap. -/
theorem ends_gaps {gap : List Char} (apart : gap ≠ []) (between : AllGaps gap) (rest : List Char)
    : Literal.Ends (gap ++ rest) := by
  obtain ⟨d, gap, rfl⟩ := List.exists_cons_of_ne_nil apart
  rintro c ⟨⟩
  rcases between _ List.mem_cons_self with rfl | rfl <;> decide

/-- A sign that a bound ends at. -/
def IsBoundEnd (c : Char) : Prop :=
  c = ',' ∨ c = ']'

namespace IsBoundEnd

variable {sign : Char}

theorem stops_gaps (ends : IsBoundEnd sign) (rest : List Char)
    : ∀ c ∈ (sign :: rest).head?, isGap c = false := by
  rintro c ⟨⟩
  rcases ends with rfl | rfl <;> rfl

theorem stops_names (ends : IsBoundEnd sign) (rest : List Char)
    : ∀ c ∈ (sign :: rest).head?, isNameRest c = false := by
  rintro c ⟨⟩
  rcases ends with rfl | rfl <;> rfl

theorem stops_numbers (ends : IsBoundEnd sign) (rest : List Char)
    : Literal.Ends (sign :: rest) := by
  rintro c ⟨⟩
  rcases ends with rfl | rfl <;> decide

end IsBoundEnd

/-- Where no name stands behind gaps, no unit is found. -/
theorem unit_missing {gap : List Char} {sign : Char} (between : AllGaps gap)
    (ends : IsBoundEnd sign) (rest : List Char)
    : optional (do gaps1; name) (gap ++ sign :: rest) = .ok (none, gap ++ sign :: rest) := by
  have noName : name (sign :: rest) = .error (sign :: rest) := by
    rcases ends with rfl | rfl <;> rfl
  refine optional_eq_ok_iff.mpr (.inr ⟨rfl, rfl, ?_⟩)
  by_cases apart : gap = []
  · subst apart
    rcases ends with rfl | rfl <;> exact ⟨_, rfl⟩
  · rw [bind_of_ok (gaps1_append apart between (ends.stops_gaps rest))]
    exact ⟨_, noName⟩

/-- A bound is read up to the sign behind it. -/
theorem spacedBound_append {value : Float} {measure : Option String} {text : List Char}
    (bounded : BoundText value measure text) {sign : Char} (ends : IsBoundEnd sign)
    (rest : List Char)
    : spacedBound (text ++ sign :: rest) = .ok ((value, measure), sign :: rest) := by
  cases bounded with
  | bare front figures back =>
      rename_i before number after
      have numberEnds : Literal.Ends (after ++ sign :: rest) :=
        forall_head?_gaps back (by decide) (ends.stops_numbers rest)
      have read : bound (number ++ (after ++ sign :: rest))
          = .ok ((value, none), after ++ sign :: rest) := by
        rw [bound, bind_of_ok (number_append figures numberEnds),
          bind_of_ok (unit_missing back ends rest)]
        rfl
      rw [List.append_assoc, List.append_assoc, spacedBound,
        bind_of_ok (gaps_append front (numeral_stops_gaps figures _)), bind_of_ok read,
        bind_of_ok (gaps_append back (ends.stops_gaps rest))]
      rfl
  | measured front figures apart between named back =>
      rename_i before number gap after unit
      have unitRead : optional (do gaps1; name) (gap ++ (unit.toList ++ (after ++ sign :: rest)))
          = .ok (some unit, after ++ sign :: rest) := by
        refine optional_eq_ok_iff.mpr (.inl ⟨unit, rfl, ?_⟩)
        rw [bind_of_ok (gaps1_append apart between (name_stops_gaps named _))]
        exact name_append named (forall_head?_gaps back (by decide) (ends.stops_names rest))
      have read : bound (number ++ (gap ++ (unit.toList ++ (after ++ sign :: rest))))
          = .ok ((value, some unit), after ++ sign :: rest) := by
        rw [bound, bind_of_ok (number_append figures (ends_gaps apart between _)),
          bind_of_ok unitRead]
        rfl
      rw [List.append_assoc, List.append_assoc, List.append_assoc, List.append_assoc, spacedBound,
        bind_of_ok (gaps_append front (numeral_stops_gaps figures _)), bind_of_ok read,
        bind_of_ok (gaps_append back (ends.stops_gaps rest))]
      rfl

/-- What is read as a bound is one. -/
theorem exists_boundText {value : Float} {measure : Option String}
    (read : spacedBound s = .ok ((value, measure), rest)) (finite : value.isFinite = true)
    : ∃ text, s = text ++ rest ∧ BoundText value measure text := by
  obtain ⟨_, s₁, front, read⟩ := bind_eq_ok_iff.mp read
  obtain ⟨found, s₂, bounded, read⟩ := bind_eq_ok_iff.mp read
  obtain ⟨_, s₃, back, read⟩ := bind_eq_ok_iff.mp read
  obtain ⟨rfl, rfl⟩ := Prod.mk.inj (Except.ok.inj read)
  obtain ⟨value', s₄, figures, bounded⟩ := bind_eq_ok_iff.mp bounded
  obtain ⟨measure', s₅, measured, bounded⟩ := bind_eq_ok_iff.mp bounded
  obtain ⟨same, rfl⟩ := Prod.mk.inj (Except.ok.inj bounded)
  obtain ⟨rfl, rfl⟩ := Prod.mk.inj same
  obtain ⟨before, rfl, frontGaps⟩ := exists_gaps front
  obtain ⟨number, rfl, numeral⟩ := exists_numeral figures finite
  obtain ⟨after, rfl, backGaps⟩ := exists_gaps back
  rcases optional_eq_ok_iff.mp measured with ⟨unit, rfl, unitRead⟩ | ⟨rfl, rfl, -⟩
  · obtain ⟨_, s₆, between, named⟩ :=
      bind_eq_ok_iff.mp (show (gaps1 >>= fun _ => name) _ = _ from unitRead)
    obtain ⟨gap, rfl, apart, allGaps⟩ := exists_gaps1 between
    obtain ⟨rfl, isName, -⟩ := exists_name named
    refine ⟨_, ?_, .measured frontGaps numeral apart allGaps isName backGaps⟩
    simp only [List.append_assoc]
  · refine ⟨_, ?_, .bare frontGaps numeral backGaps⟩
    simp only [List.append_assoc]

-----------------------------------------------------------------------------------------
-- Directives
-----------------------------------------------------------------------------------------

/-- The beginning of a directive is read up to what is no gap. -/
theorem declared_append {keyword : Keyword} {word : String} {text : List Char}
    (heads : Heading keyword word text) (stops : ∀ c ∈ rest.head?, isGap c = false)
    : declared keyword (text ++ rest) = .ok (word, rest) := by
  obtain ⟨apart, between, named, front, back⟩ := heads
  rename_i gap before after
  have equals : ∀ c ∈ ("==".toList ++ (after ++ rest)).head?,
      isNameRest c = false ∧ isGap c = false := by
    rintro c ⟨⟩
    decide
  have nameEnds : ∀ c ∈ (before ++ ("==".toList ++ (after ++ rest))).head?, isNameRest c = false :=
    forall_head?_gaps front (by decide) fun c first => (equals c first).1
  simp only [List.append_assoc]
  rw [declared, bind_of_ok (literal_append _ _),
    bind_of_ok (gaps1_append apart between (name_stops_gaps named _)),
    bind_of_ok (name_append named nameEnds),
    bind_of_ok (gaps_append front fun c first => (equals c first).2),
    bind_of_ok (literal_append _ _), bind_of_ok (gaps_append back stops)]
  rfl

/-- What is read as the beginning of a directive is one. -/
theorem exists_heading {keyword : Keyword} {word : String}
    (read : declared keyword s = .ok (word, rest))
    : ∃ text, s = text ++ rest ∧ Heading keyword word text := by
  obtain ⟨_, s₁, first, read⟩ := bind_eq_ok_iff.mp read
  obtain ⟨_, s₂, between, read⟩ := bind_eq_ok_iff.mp read
  obtain ⟨found, s₃, named, read⟩ := bind_eq_ok_iff.mp read
  obtain ⟨_, s₄, front, read⟩ := bind_eq_ok_iff.mp read
  obtain ⟨_, s₅, equals, read⟩ := bind_eq_ok_iff.mp read
  obtain ⟨_, s₆, back, read⟩ := bind_eq_ok_iff.mp read
  obtain ⟨rfl, rfl⟩ := Prod.mk.inj (Except.ok.inj read)
  obtain rfl := literal_eq_ok_iff.mp first
  obtain ⟨gap, rfl, apart, allGaps⟩ := exists_gaps1 between
  obtain ⟨rfl, isName, -⟩ := exists_name named
  obtain ⟨before, rfl, frontGaps⟩ := exists_gaps front
  obtain rfl := literal_eq_ok_iff.mp equals
  obtain ⟨after, rfl, backGaps⟩ := exists_gaps back
  refine ⟨_, ?_, .parts apart allGaps isName frontGaps backGaps⟩
  simp only [List.append_assoc]

/-- A range is read where it stands. -/
theorem range_append {word : String} {low high : Float × Option String} {text : List Char}
    (ranges : RangeText word low high text) (rest : List Char)
    : range (text ++ rest) = .ok ((word, low, high), rest) := by
  obtain ⟨heads, first, second⟩ := ranges
  rename_i head lower upper
  have opens : ∀ t, literal "[" ('[' :: t) = .ok ((), t) := literal_append "["
  have divides : ∀ t, literal "," (',' :: t) = .ok ((), t) := literal_append ","
  have closes : ∀ t, literal "]" (']' :: t) = .ok ((), t) := literal_append "]"
  simp only [List.append_assoc, List.cons_append, List.nil_append]
  rw [range, bind_of_ok (declared_append heads (by rintro c ⟨⟩; rfl)), bind_of_ok (opens _),
    bind_of_ok (spacedBound_append first (.inl rfl) _), bind_of_ok (divides _),
    bind_of_ok (spacedBound_append second (.inr rfl) _), bind_of_ok (closes _)]
  rfl

/-- What is read as a range of finite numbers is one. -/
theorem exists_rangeText {word : String} {low high : Float × Option String}
    (read : range s = .ok ((word, low, high), rest)) (finite : low.1.isFinite = true)
    (finite' : high.1.isFinite = true)
    : ∃ text, s = text ++ rest ∧ RangeText word low high text := by
  obtain ⟨found, s₁, heads, read⟩ := bind_eq_ok_iff.mp read
  obtain ⟨_, s₂, opens, read⟩ := bind_eq_ok_iff.mp read
  obtain ⟨low', s₃, first, read⟩ := bind_eq_ok_iff.mp read
  obtain ⟨_, s₄, divides, read⟩ := bind_eq_ok_iff.mp read
  obtain ⟨high', s₅, second, read⟩ := bind_eq_ok_iff.mp read
  obtain ⟨_, s₆, closes, read⟩ := bind_eq_ok_iff.mp read
  obtain ⟨⟨rfl, rfl, rfl⟩, rfl⟩ := by
    simpa only [Prod.mk.injEq] using Except.ok.inj read
  obtain ⟨head, rfl, heading⟩ := exists_heading heads
  obtain rfl := literal_eq_ok_iff.mp opens
  obtain ⟨lower, rfl, lowerBound⟩ := exists_boundText first finite
  obtain rfl := literal_eq_ok_iff.mp divides
  obtain ⟨upper, rfl, upperBound⟩ := exists_boundText second finite'
  obtain rfl := literal_eq_ok_iff.mp closes
  refine ⟨_, ?_, .parts heading lowerBound upperBound⟩
  simp only [List.append_assoc, List.cons_append, List.nil_append]
  rfl

/-- A precision is read up to what no name goes on with. -/
theorem precision_append {word : String} {value : Float} {measure : String} {text : List Char}
    (precise : PrecisionText word value measure text)
    (stops : ∀ c ∈ rest.head?, isNameRest c = false)
    : precision (text ++ rest) = .ok ((word, value, measure), rest) := by
  obtain ⟨heads, figures, apart, between, named⟩ := precise
  simp only [List.append_assoc]
  rw [precision, bind_of_ok (declared_append heads (numeral_stops_gaps figures _)),
    bind_of_ok (number_append figures (ends_gaps apart between _)),
    bind_of_ok (gaps1_append apart between (name_stops_gaps named _)),
    bind_of_ok (name_append named stops)]
  rfl

/-- What is read as a precision with a finite number is one. -/
theorem exists_precisionText {word : String} {value : Float} {measure : String}
    (read : precision s = .ok ((word, value, measure), rest)) (finite : value.isFinite = true)
    : ∃ text, s = text ++ rest ∧ PrecisionText word value measure text
      ∧ ∀ c ∈ rest.head?, isNameRest c = false := by
  obtain ⟨found, s₁, heads, read⟩ := bind_eq_ok_iff.mp read
  obtain ⟨value', s₂, figures, read⟩ := bind_eq_ok_iff.mp read
  obtain ⟨_, s₃, between, read⟩ := bind_eq_ok_iff.mp read
  obtain ⟨measure', s₄, named, read⟩ := bind_eq_ok_iff.mp read
  obtain ⟨⟨rfl, rfl, rfl⟩, rfl⟩ := by
    simpa only [Prod.mk.injEq] using Except.ok.inj read
  obtain ⟨head, rfl, heading⟩ := exists_heading heads
  obtain ⟨figures', rfl, numeral⟩ := exists_numeral figures finite
  obtain ⟨gap, rfl, apart, allGaps⟩ := exists_gaps1 between
  obtain ⟨rfl, isName, stops⟩ := exists_name named
  refine ⟨_, ?_, .parts heading numeral apart allGaps isName, stops⟩
  simp only [List.append_assoc]

end Phrase

end RangeTuner.Spec
