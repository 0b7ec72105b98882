import RangeTuner.Proofs.Figures.Order
import RangeTuner.Proofs.Spec.Derivation

/-! What a specification is read as, in full. The declared facts are those of the last directive for
each quantity, so lines that are no directives do not matter, and neither does the order of lines
for different quantities. Deriving again changes nothing, because no source of a derived fact is
derived. Main statement: the facts of a specification with a directive, and the moves of lines
that leave them.
-/

namespace RangeTuner.Spec

open RangeTuner.Text

-----------------------------------------------------------------------------------------
-- Precisions
-----------------------------------------------------------------------------------------

def Directive.precisionFor? (quantity : String) : Directive → Option PrecisionDirective
  | .precision p => if p.name = quantity then some p else none
  | .range _ => none

/-- The last precision that a text declares for some quantity. -/
def lastPrecision? (text : List Char) (quantity : String) : Option PrecisionDirective :=
  ((directives text).filterMap (Directive.precisionFor? quantity)).getLast?

/-- The precision that a text declares is the one of its last precision directive. -/
theorem get?_declaredFacts_precision (text : List Char) (quantity : String)
    : (declaredFacts text).get? (Facts.precisionOf quantity)
      = (lastPrecision? text quantity).map PrecisionDirective.value := by
  show (declaredFacts text).get? (Aspect.precision.of quantity) = _
  refine get?_declaredFacts_of_parts (fun directive => ?_) text
  unfold Directive.figureFor?
  cases directive with
  | range r => simp [Directive.precisionFor?, Directive.figure?]
  | precision p =>
      by_cases named : p.name = quantity <;>
        simp [named, Directive.precisionFor?, Directive.name, Directive.figure?]

-----------------------------------------------------------------------------------------
-- Deriving
-----------------------------------------------------------------------------------------

/-- The facts that deriving writes. -/
def derivedFacts : List String := [
  Facts.smallOf Axis.latitude.name,
  Facts.smallOf Axis.longitude.name,
  Facts.area,
  Facts.category,
  Facts.vehicle]

/-- The facts that others are derived from. -/
def sourceFacts : List String := [
  Facts.rangeOf Axis.latitude.name,
  Facts.rangeOf Axis.longitude.name,
  Facts.maxOf Facts.speed]

/-- Facts are their origin, their region and their figures. -/
theorem Facts.eq_of_parts {facts other : Facts} (origin : facts.origin = other.origin)
    (region : facts.region = other.region) (values : facts.values = other.values)
    : facts = other := by
  cases facts
  cases other
  simp_all

namespace Thresholds

variable {t : Thresholds}

theorem derived?_of_not_derived {fact : String} (declared : fact ∉ derivedFacts)
    (facts : Facts)
    : t.derived? facts fact = none := by
  simp only [derivedFacts, List.mem_cons, List.not_mem_nil, or_false, not_or] at declared
  obtain ⟨latitude, longitude, area, category, vehicle⟩ := declared
  simp [derived?, Ne.symm latitude, Ne.symm longitude, Ne.symm area, Ne.symm category,
    Ne.symm vehicle]

/-- What is derived depends on the sources alone. -/
theorem derived?_congr {facts other : Facts}
    (same : ∀ source ∈ sourceFacts, facts.get? source = other.get? source)
    : t.derived? facts = t.derived? other := by
  funext fact
  simp only [sourceFacts, List.forall_mem_cons] at same
  obtain ⟨latitude, longitude, speed, -⟩ := same
  simp only [derived?, spannedArea?, latitude, longitude, speed]

/-- No source is derived. -/
theorem get?_derive_source (facts : Facts)
    : ∀ source ∈ sourceFacts, (t.derive facts).get? source = facts.get? source := by
  intro source member
  have declared : source ∉ derivedFacts := by
    revert source
    decide
  rw [get?_derive, derived?_of_not_derived declared]
  rfl

/-- Deriving keeps the order of the table. -/
theorem derive_ordered {facts : Facts} (ordered : facts.values.Ordered)
    : (t.derive facts).values.Ordered := by
  have small : ∀ {facts : Facts} (axis : Axis), facts.values.Ordered
      → (t.deriveSmall facts axis).values.Ordered := by
    intro facts axis ordered
    unfold deriveSmall
    split
    · exact ordered.insert _ _
    · exact ordered
  have area : ∀ {facts : Facts}, facts.values.Ordered
      → (t.deriveArea facts).values.Ordered := by
    intro facts ordered
    unfold deriveArea
    split
    · exact (ordered.insert _ _).insert _ _
    · exact ordered
  unfold derive deriveUsage
  split
  · exact (area (small .longitude (small .latitude ordered))).insert _ _
  · exact area (small .longitude (small .latitude ordered))

/-- Deriving keeps what is no figure. -/
theorem derive_origin (facts : Facts)
    : (t.derive facts).origin = facts.origin ∧ (t.derive facts).region = facts.region := by
  unfold derive deriveUsage deriveArea deriveSmall
  repeat' split
  all_goals exact ⟨rfl, rfl⟩

/-- Deriving twice is deriving once. -/
theorem derive_derive {facts : Facts} (ordered : facts.values.Ordered)
    : t.derive (t.derive facts) = t.derive facts := by
  have figures : (t.derive (t.derive facts)).values = (t.derive facts).values := by
    refine (derive_ordered (derive_ordered ordered)).ext (derive_ordered ordered) fun fact => ?_
    show (t.derive (t.derive facts)).get? fact = (t.derive facts).get? fact
    rw [get?_derive, derived?_congr (get?_derive_source facts), get?_derive]
    cases t.derived? facts fact <;> rfl
  obtain ⟨origin, region⟩ := derive_origin (t := t) (t.derive facts)
  exact Facts.eq_of_parts origin region figures

end Thresholds

-----------------------------------------------------------------------------------------
-- Moves of lines
-----------------------------------------------------------------------------------------

/-- The line is no directive, or a faulty one. -/
def Idle (line : List Char) : Prop :=
  ∀ directive, Directive.ofLine? line ≠ some (.ok directive)

/-- The lines are no well-formed directives for one quantity. -/
def Apart (line other : List Char) : Prop :=
  ∀ directive directive', Directive.ofLine? line = some (.ok directive)
    → Directive.ofLine? other = some (.ok directive') → directive.name ≠ directive'.name

/-- Lines become others by putting in and taking out idle lines and by exchanging neighbours that
are no directives for one quantity.
-/
inductive Rearranged : List (List Char) → List (List Char) → Prop where
  | refl (lines : List (List Char)) : Rearranged lines lines
  | insert (before after : List (List Char)) {line : List Char} (idle : Idle line)
    : Rearranged (before ++ after) (before ++ line :: after)
  | delete (before after : List (List Char)) {line : List Char} (idle : Idle line)
    : Rearranged (before ++ line :: after) (before ++ after)
  | exchange (before after : List (List Char)) {line other : List Char}
    (apart : Apart line other)
    : Rearranged (before ++ line :: other :: after) (before ++ other :: line :: after)
  | trans {lines middle others : List (List Char)} (first : Rearranged lines middle)
    (second : Rearranged middle others)
    : Rearranged lines others

/-- The directive that a line says, if it says one. -/
def saidBy? (line : List Char) : Option Directive :=
  match Directive.ofLine? line with
  | some (.ok directive) => some directive
  | _ => none

theorem saidBy?_eq_some_iff {line : List Char} {directive : Directive}
    : saidBy? line = some directive ↔ Directive.ofLine? line = some (.ok directive) := by
  unfold saidBy?
  constructor
  · intro said
    split at said
    · next found =>
        cases said
        exact found
    · cases said
  · intro said
    rw [said]

theorem saidBy?_of_idle {line : List Char} (idle : Idle line)
    : saidBy? line = none :=
  Option.eq_none_iff_forall_ne_some.mpr fun directive said =>
    idle directive (saidBy?_eq_some_iff.mp said)

/-- The directives for one quantity that lines say, in order. -/
def saidFor (quantity : String) (lines : List (List Char)) : List Directive :=
  (lines.filterMap saidBy?).filter fun directive => directive.name = quantity

/-- Moved lines say the same for every quantity, by cases on the moves. -/
theorem Rearranged.saidFor {lines others : List (List Char)}
    (moved : Rearranged lines others) (quantity : String)
    : saidFor quantity others = saidFor quantity lines := by
  unfold Spec.saidFor
  induction moved with
  | refl => rfl
  | insert before after idle => simp [saidBy?_of_idle idle]
  | delete before after idle => simp [saidBy?_of_idle idle]
  | @exchange before after line other apart =>
      cases first : saidBy? line with
      | none => simp [first, List.filterMap_cons]
      | some directive =>
          cases second : saidBy? other with
          | none => simp [first, second]
          | some directive' =>
              have differ := apart _ _ (saidBy?_eq_some_iff.mp first)
                (saidBy?_eq_some_iff.mp second)
              by_cases named : directive.name = quantity
              · have unnamed : directive'.name ≠ quantity := fun same =>
                  differ (named.trans same.symm)
                simp [first, second, named, unnamed]
              · by_cases named' : directive'.name = quantity <;>
                  simp [first, second, named, named']
  | trans _ _ first second => rw [second, first]

/-- The figures for a fact are those of the directives for its quantity. -/
theorem filterMap_figureFor? (directives : List Directive) (aspect : Aspect)
    (quantity : String)
    : directives.filterMap (Directive.figureFor? aspect quantity)
      = (directives.filter fun directive => directive.name = quantity).filterMap
          (Directive.figure? · aspect) := by
  rw [List.filterMap_filter]
  refine List.filterMap_congr fun directive _ => ?_
  simp [Directive.figureFor?]

/-- Moved lines declare the same facts, but for the number of records. -/
theorem get?_declaredFacts_of_rearranged {text other : List Char}
    (moved : Rearranged (lines text) (lines other)) {fact : String}
    (declared : fact ≠ Facts.records)
    : (declaredFacts other).get? fact = (declaredFacts text).get? fact := by
  by_cases free : Undeclarable fact
  · rw [get?_declaredFacts_of_undeclarable free declared,
      get?_declaredFacts_of_undeclarable free declared]
  · simp only [Undeclarable, not_forall, not_not] at free
    obtain ⟨aspect, quantity, rfl⟩ := free
    have same : (directives other).filter _ = (directives text).filter _ := moved.saidFor quantity
    rw [get?_declaredFacts, get?_declaredFacts, filterMap_figureFor?, filterMap_figureFor?, same]

-----------------------------------------------------------------------------------------
-- Reading a specification with a directive
-----------------------------------------------------------------------------------------

/-- Some line of the text is a well-formed directive. -/
def HasDirective (text : List Char) : Prop :=
  ∃ line ∈ lines text, ∃ directive, Directive.ofLine? line = some (.ok directive)

/-- A text with a directive is read as the facts derived from what it declares. -/
theorem read_of_hasDirective (t : Thresholds) {text : List Char} (declares : HasDirective text)
    : t.read (some text) = t.derive { declaredFacts text with region := regionOf text } := by
  obtain ⟨line, member, directive, said⟩ := declares
  have listed : directive ∈ directives text := mem_directives.mpr ⟨line, member, said⟩
  rcases t.read_some text with ⟨silent, -⟩ | derived
  · rw [silent] at listed
    cases listed
  · exact derived

/-- Moved lines still hold a directive. -/
theorem HasDirective.of_rearranged {text other : List Char} (declares : HasDirective text)
    (moved : Rearranged (lines text) (lines other))
    : HasDirective other := by
  obtain ⟨line, member, directive, said⟩ := declares
  have listed : directive ∈ saidFor directive.name (lines other) := by
    rw [moved.saidFor]
    exact List.mem_filter.mpr
      ⟨List.mem_filterMap.mpr ⟨line, member, saidBy?_eq_some_iff.mpr said⟩, by simp⟩
  obtain ⟨line, member, said⟩ := List.mem_filterMap.mp (List.mem_filter.mp listed).1
  exact ⟨line, member, directive, saidBy?_eq_some_iff.mp said⟩

/-- The table of declared facts is in order, by induction on the directives. -/
theorem declaredFacts_ordered (text : List Char)
    : (declaredFacts text).values.Ordered := by
  have declare : ∀ (directive : Directive) {facts : Facts}, facts.values.Ordered
      → (facts.declare directive).values.Ordered := by
    intro directive facts ordered
    cases directive with
    | range r => exact ((ordered.insert _ _).insert _ _).insert _ _
    | precision p => exact ordered.insert _ _
  have folded : ∀ (ds : List Directive) {facts : Facts}, facts.values.Ordered
      → (ds.foldl Facts.declare facts).values.Ordered := by
    intro ds
    induction ds with
    | nil => exact id
    | cons first rest ih => exact fun ordered => ih (declare first ordered)
  have declared := folded (directives text) (show Facts.empty.values.Ordered from
    Figures.ordered_empty)
  unfold declaredFacts
  cases recordCount? text with
  | none => exact declared
  | some count => exact declared.insert _ _

/-- A declared fact is written by some directive, or the number of records. -/
theorem written_of_get?_declaredFacts {text : List Char} {fact : String} {figure : Float}
    (known : (declaredFacts text).get? fact = some figure)
    : fact = Facts.records
      ∨ ∃ directive ∈ directives text, ∃ aspect, (directive.figure? aspect).isSome = true
        ∧ fact = aspect.of directive.name := by
  by_cases counted : fact = Facts.records
  · exact .inl counted
  · by_cases free : Undeclarable fact
    · rw [get?_declaredFacts_of_undeclarable free counted] at known
      cases known
    · simp only [Undeclarable, not_forall, not_not] at free
      obtain ⟨aspect, quantity, rfl⟩ := free
      rw [get?_declaredFacts] at known
      obtain ⟨directive, member, told⟩ :=
        List.mem_filterMap.mp (List.mem_of_getLast? known)
      unfold Directive.figureFor? at told
      split at told
      · next named =>
          exact .inr ⟨directive, member, aspect, by rw [told]; rfl, by rw [named]⟩
      · cases told

/-- The quantities whose widths stand where the flags of the axes stand. -/
def flagQuantities : List String :=
  [Axis.latitude.name ++ "_is_small", Axis.longitude.name ++ "_is_small"]

/-- Of the facts that directives write, deriving writes only the flags of the axes. -/
theorem Aspect.of_mem_derivedFacts_iff {aspect : Aspect} {quantity : String}
    : aspect.of quantity ∈ derivedFacts ↔ aspect = .range ∧ quantity ∈ flagQuantities := by
  have flag : ∀ axis : Axis, aspect.of quantity = Facts.smallOf axis.name
      ↔ aspect = .range ∧ quantity = axis.name ++ "_is_small" := by
    intro axis
    rw [smallOf_eq_rangeOf, show Facts.rangeOf = Aspect.range.of from rfl, Aspect.of_eq_of_iff]
  have category : Undeclarable Facts.category :=
    undeclarable_of_ending fun aspect => by cases aspect <;> decide
  have vehicle : Undeclarable Facts.vehicle :=
    undeclarable_of_ending fun aspect => by cases aspect <;> decide
  simp only [derivedFacts, flagQuantities, List.mem_cons, List.not_mem_nil, or_false, flag,
    area_undeclarable aspect quantity, category aspect quantity, vehicle aspect quantity,
    and_or_left]

/-- A fact that is declared and not derived is read as it is declared. -/
theorem get?_read_declared (t : Thresholds) {text : List Char} (declares : HasDirective text)
    {fact : String} (declared : fact ∉ derivedFacts)
    : (t.read (some text)).get? fact = (declaredFacts text).get? fact := by
  rw [read_of_hasDirective t declares, Thresholds.get?_derive,
    Thresholds.derived?_of_not_derived declared]
  rfl

/-- Moved lines are read as the same facts, but for the number of records. -/
theorem get?_read_of_rearranged (t : Thresholds) {text other : List Char}
    (declares : HasDirective text) (moved : Rearranged (lines text) (lines other))
    {fact : String} (declared : fact ≠ Facts.records)
    : (t.read (some other)).get? fact = (t.read (some text)).get? fact := by
  have sources : ∀ source ∈ sourceFacts,
      (declaredFacts other).get? source = (declaredFacts text).get? source := by
    intro source member
    have uncounted : source ≠ Facts.records := by
      revert source
      decide
    exact get?_declaredFacts_of_rearranged moved uncounted
  have derived
      : t.derived? { declaredFacts other with region := regionOf other }
        = t.derived? { declaredFacts text with region := regionOf text } :=
    Thresholds.derived?_congr sources
  rw [read_of_hasDirective t declares, read_of_hasDirective t (declares.of_rearranged moved),
    Thresholds.get?_derive, Thresholds.get?_derive, derived]
  exact congrArg _ (get?_declaredFacts_of_rearranged moved declared)

/-- Main statement: the facts of a text with a directive are the figures of the last directive for
each quantity, the number of records and the derived facts, and no others. Idle lines and the
order of lines for different quantities matter for nothing but the number of records, and nothing
is left to derive. Only the widths of two quantities are not told, which are named so that they
stand where the flags of the axes do.
-/
theorem read_is_last_directives (t : Thresholds) (text : List Char)
    (declares : HasDirective text)
    : (∀ quantity,
        (t.read (some text)).get? (Facts.minOf quantity)
          = (lastRange? text quantity).map RangeDirective.min
        ∧ (t.read (some text)).get? (Facts.maxOf quantity)
          = (lastRange? text quantity).map RangeDirective.max
        ∧ (quantity ∉ flagQuantities
          → (t.read (some text)).get? (Facts.rangeOf quantity)
            = (lastRange? text quantity).map RangeDirective.width)
        ∧ (t.read (some text)).get? (Facts.precisionOf quantity)
          = (lastPrecision? text quantity).map PrecisionDirective.value)
      ∧ (∀ fact figure, (t.read (some text)).get? fact = some figure
        → fact = Facts.records ∨ fact ∈ derivedFacts
          ∨ ∃ directive ∈ directives text, ∃ aspect : Aspect,
            (directive.figure? aspect).isSome = true ∧ fact = aspect.of directive.name)
      ∧ (∀ other, Rearranged (lines text) (lines other) → ∀ fact, fact ≠ Facts.records
        → (t.read (some other)).get? fact = (t.read (some text)).get? fact)
      ∧ t.derive (t.read (some text)) = t.read (some text) := by
  have underived : ∀ (aspect : Aspect) (quantity : String), aspect ≠ .range
      → aspect.of quantity ∉ derivedFacts :=
    fun _ _ other derived => other (Aspect.of_mem_derivedFacts_iff.mp derived).1
  refine ⟨fun quantity => ⟨?_, ?_, fun plain => ?_, ?_⟩, ?_, ?_, ?_⟩
  · exact (get?_read_declared t declares (underived .min quantity (by decide))).trans
      (get?_declaredFacts_of_range .min (fun _ => rfl) (fun _ => rfl) text quantity)
  · exact (get?_read_declared t declares (underived .max quantity (by decide))).trans
      (get?_declaredFacts_of_range .max (fun _ => rfl) (fun _ => rfl) text quantity)
  · have declared : Aspect.range.of quantity ∉ derivedFacts := fun derived =>
      plain (Aspect.of_mem_derivedFacts_iff.mp derived).2
    exact (get?_read_declared t declares declared).trans (get?_declaredFacts_range text quantity)
  · exact (get?_read_declared t declares (underived .precision quantity (by decide))).trans
      (get?_declaredFacts_precision text quantity)
  · intro fact figure known
    by_cases derived : fact ∈ derivedFacts
    · exact .inr (.inl derived)
    · rw [get?_read_declared t declares derived] at known
      exact (written_of_get?_declaredFacts known).imp_right .inr
  · exact fun other moved fact declared => get?_read_of_rearranged t declares moved declared
  · rw [read_of_hasDirective t declares]
    exact Thresholds.derive_derive (declaredFacts_ordered text)

/-- A text that declares a range twice, with a faulty line between. -/
def twoRanges : List Char :=
  "range speed == [0, 90]\nrange speed = 1\nrange speed == [0, 60]".toList

/-- The same ranges without the faulty line. -/
def twoRangesAlone : List Char :=
  "range speed == [0, 90]\nrange speed == [0, 60]".toList

/-- The second range counts, and the faulty line does not matter. -/
theorem read_of_twoRanges
    : HasDirective twoRanges
      ∧ Rearranged (lines twoRanges) (lines twoRangesAlone)
      ∧ (Thresholds.standard.read (some twoRanges)).get? (Facts.maxOf Facts.speed) = some 60.0
      ∧ ∀ fact, fact ≠ Facts.records
        → (Thresholds.standard.read (some twoRangesAlone)).get? fact
          = (Thresholds.standard.read (some twoRanges)).get? fact := by
  have filled : directives twoRanges ≠ [] := by
    refine List.isEmpty_eq_false_iff.mp ?_
    decide +kernel
  obtain ⟨directive, member⟩ := List.exists_mem_of_ne_nil _ filled
  obtain ⟨line, within, said⟩ := mem_directives.mp member
  have declares : HasDirective twoRanges := ⟨line, within, directive, said⟩
  have idle : Idle "range speed = 1".toList := by
    intro directive said
    have silent : saidBy? "range speed = 1".toList = none := by
      refine Option.isNone_iff_eq_none.mp ?_
      decide +kernel
    rw [saidBy?_eq_some_iff.mpr said] at silent
    cases silent
  have moved : Rearranged (lines twoRanges) (lines twoRangesAlone) :=
    .delete ["range speed == [0, 90]".toList] ["range speed == [0, 60]".toList] idle
  obtain ⟨figures, -, unmoved, -⟩ :=
    read_is_last_directives Thresholds.standard twoRanges declares
  have last : (lastRange? twoRanges Facts.speed).map RangeDirective.max = some 60.0 := by
    decide +kernel
  exact ⟨declares, moved, (figures Facts.speed).2.1.trans last, unmoved twoRangesAlone moved⟩

end RangeTuner.Spec
