import RangeTuner.Spec.Reading

/-! Declared facts. A directive writes facts whose names are the declared name with the ending of an
aspect, so a name and an aspect are told from such a fact, and no directive writes any other fact.
Main statements: a declared fact is the figure of the last directive that writes it, and what
a text without directives is read as.
-/

namespace RangeTuner.Spec

open RangeTuner.Text

-----------------------------------------------------------------------------------------
-- The names of declared facts
-----------------------------------------------------------------------------------------

/-- What a directive tells of a quantity. -/
inductive Aspect where
  | min
  | max
  | range
  | precision
deriving DecidableEq, Repr

def Aspect.of : Aspect → String → String
  | .min => Facts.minOf
  | .max => Facts.maxOf
  | .range => Facts.rangeOf
  | .precision => Facts.precisionOf

/-- The ending of the facts for an aspect, last letter first. -/
def Aspect.backwards : Aspect → List Char
  | .min => ['n', 'i', 'm', '_']
  | .max => ['x', 'a', 'm', '_']
  | .range => ['e', 'g', 'n', 'a', 'r', '_']
  | .precision => ['n', 'o', 'i', 's', 'i', 'c', 'e', 'r', 'p', '_']

/-- A declared fact, last letter first, starts with the ending of its aspect. -/
theorem Aspect.reverse_of (aspect : Aspect) (name : String)
    : (aspect.of name).toList.reverse = aspect.backwards ++ name.toList.reverse := by
  cases aspect <;>
    simp [of, backwards, Facts.minOf, Facts.maxOf, Facts.rangeOf, Facts.precisionOf]

/-- The aspect and the quantity are told from the fact, by cases on the endings. -/
theorem Aspect.of_eq_of_iff {aspect other : Aspect} {name second : String}
    : aspect.of name = other.of second ↔ aspect = other ∧ name = second := by
  refine ⟨fun same => ?_, fun ⟨sameAspect, sameName⟩ => sameAspect ▸ sameName ▸ rfl⟩
  have backwards := congrArg (fun fact => fact.toList.reverse) same
  simp only [reverse_of] at backwards
  cases aspect <;> cases other <;>
    simp [Aspect.backwards, String.toList_inj] at backwards ⊢ <;> exact backwards

/-- No directive can write the fact. -/
def Undeclarable (fact : String) : Prop :=
  ∀ (aspect : Aspect) (name : String), aspect.of name ≠ fact

/-- A fact that ends with no aspect's ending is not declarable. -/
theorem undeclarable_of_ending {fact : String}
    (ending : ∀ aspect : Aspect, ¬ aspect.backwards <+: fact.toList.reverse)
    : Undeclarable fact := by
  intro aspect name same
  apply ending aspect
  rw [← same, Aspect.reverse_of]
  exact List.prefix_append _ _

-----------------------------------------------------------------------------------------
-- What directives write
-----------------------------------------------------------------------------------------

namespace Directive

def name : Directive → String
  | .range r => r.name
  | .precision p => p.name

def figure? : Directive → Aspect → Option Float
  | .range r, .min => some r.min
  | .range r, .max => some r.max
  | .range r, .range => some r.width
  | .precision p, .precision => some p.value
  | _, _ => none

/-- The figure that a directive gives for an aspect of some quantity. -/
def figureFor? (aspect : Aspect) (quantity : String) (directive : Directive) : Option Float :=
  if directive.name = quantity then directive.figure? aspect else none

def rangeFor? (quantity : String) : Directive → Option RangeDirective
  | .range r => if r.name = quantity then some r else none
  | .precision _ => none

end Directive

/-- The last range that a text declares for some quantity. -/
def lastRange? (text : List Char) (quantity : String) : Option RangeDirective :=
  ((directives text).filterMap (Directive.rangeFor? quantity)).getLast?

/-- A directive of a text is what one of its lines says. -/
theorem mem_directives {text : List Char} {directive : Directive}
    : directive ∈ directives text
      ↔ ∃ line ∈ lines text, Directive.ofLine? line = some (.ok directive) := by
  simp only [directives, List.mem_filterMap]
  refine exists_congr fun line => and_congr_right fun _ => ?_
  constructor
  · intro found
    split at found
    · next directive' said =>
        cases found
        exact said
    · cases found
  · intro said
    simp only [said]

/-- Some line of the text is a well-formed range of the quantity. -/
def Declares (text : List Char) (quantity : String) : Prop :=
  ∃ line ∈ lines text, ∃ r, Directive.ofLine? line = some (.ok (.range r)) ∧ r.name = quantity

/-- A directive declares a range for a quantity when it is one of that name. -/
theorem rangeFor?_eq_some_iff {quantity : String} {directive : Directive} {r : RangeDirective}
    : directive.rangeFor? quantity = some r ↔ directive = .range r ∧ r.name = quantity := by
  cases directive with
  | precision p => simp [Directive.rangeFor?]
  | range other =>
      simp only [Directive.rangeFor?, Directive.range.injEq]
      constructor
      · intro found
        split at found
        · next named =>
            cases found
            exact ⟨rfl, named⟩
        · cases found
      · rintro ⟨rfl, named⟩
        exact if_pos named

/-- A quantity has a last range when some line declares one. -/
theorem exists_lastRange?_iff {text : List Char} {quantity : String}
    : (∃ r, lastRange? text quantity = some r) ↔ Declares text quantity := by
  rw [← Option.isSome_iff_exists, lastRange?, List.getLast?_isSome]
  constructor
  · intro some
    obtain ⟨r, found⟩ := List.exists_mem_of_ne_nil _ some
    obtain ⟨directive, member, ranged⟩ := List.mem_filterMap.mp found
    obtain ⟨rfl, named⟩ := rangeFor?_eq_some_iff.mp ranged
    obtain ⟨line, within, said⟩ := mem_directives.mp member
    exact ⟨line, within, r, said, named⟩
  · rintro ⟨line, within, r, said, named⟩
    have member := mem_directives.mpr ⟨line, within, said⟩
    exact List.ne_nil_of_mem
      (List.mem_filterMap.mpr ⟨.range r, member, rangeFor?_eq_some_iff.mpr ⟨rfl, named⟩⟩)

theorem declare_range (facts : Facts) (r : RangeDirective)
    : facts.declare (.range r)
      = ((facts.insert (Aspect.min.of r.name) r.min).insert (Aspect.max.of r.name) r.max).insert
          (Aspect.range.of r.name) r.width :=
  rfl

theorem declare_precision (facts : Facts) (p : PrecisionDirective)
    : facts.declare (.precision p) = facts.insert (Aspect.precision.of p.name) p.value :=
  rfl

/-- A directive writes its figures and leaves the other declared facts. -/
theorem get?_declare (facts : Facts) (directive : Directive) (aspect : Aspect)
    (quantity : String)
    : (facts.declare directive).get? (aspect.of quantity)
      = (directive.figureFor? aspect quantity).or (facts.get? (aspect.of quantity)) := by
  unfold Directive.figureFor?
  cases directive with
  | range r =>
      simp only [declare_range, Facts.get?_insert, Aspect.of_eq_of_iff, Directive.name]
      by_cases named : r.name = quantity <;>
        cases aspect <;> simp [named, Directive.figure?]
  | precision p =>
      simp only [declare_precision, Facts.get?_insert, Aspect.of_eq_of_iff, Directive.name]
      by_cases named : p.name = quantity <;>
        cases aspect <;> simp [named, Directive.figure?]

theorem get?_declare_of_undeclarable {fact : String} (free : Undeclarable fact) (facts : Facts)
    (directive : Directive)
    : (facts.declare directive).get? fact = facts.get? fact := by
  cases directive with
  | range r =>
      simp only [declare_range, Facts.get?_insert]
      rw [if_neg (free .range r.name), if_neg (free .max r.name), if_neg (free .min r.name)]
  | precision p =>
      simp only [declare_precision, Facts.get?_insert]
      rw [if_neg (free .precision p.name)]

/-- After several directives, a declared fact is the figure of the last one that writes it, by
induction on the directives.
-/
theorem get?_foldl_declare (ds : List Directive) (facts : Facts) (aspect : Aspect)
    (quantity : String)
    : (ds.foldl Facts.declare facts).get? (aspect.of quantity)
      = (ds.filterMap (Directive.figureFor? aspect quantity)).getLast?.or
          (facts.get? (aspect.of quantity)) := by
  induction ds generalizing facts with
  | nil => simp
  | cons first rest ih =>
      rw [List.foldl_cons, ih, get?_declare]
      cases figure : first.figureFor? aspect quantity with
      | none => simp [figure]
      | some value =>
          cases later : (rest.filterMap (Directive.figureFor? aspect quantity)).getLast? <;>
            simp [figure, List.getLast?_cons, later]

/-- Directives leave every fact that is not declarable, by induction on them. -/
theorem get?_foldl_declare_of_undeclarable {fact : String} (free : Undeclarable fact)
    (ds : List Directive) (facts : Facts)
    : (ds.foldl Facts.declare facts).get? fact = facts.get? fact := by
  induction ds generalizing facts with
  | nil => rfl
  | cons first rest ih => rw [List.foldl_cons, ih, get?_declare_of_undeclarable free]

-----------------------------------------------------------------------------------------
-- What a text declares
-----------------------------------------------------------------------------------------

theorem records_undeclarable : Undeclarable Facts.records :=
  undeclarable_of_ending fun aspect => by cases aspect <;> decide

theorem area_undeclarable : Undeclarable Facts.area :=
  undeclarable_of_ending fun aspect => by cases aspect <;> decide

/-- A fact other than the number of records is declared by directives only. -/
theorem get?_declaredFacts_of_ne {fact : String} (other : fact ≠ Facts.records) (text : List Char)
    : (declaredFacts text).get? fact
      = ((directives text).foldl Facts.declare .empty).get? fact := by
  unfold declaredFacts
  cases recordCount? text with
  | none => rfl
  | some count =>
      show (Facts.insert _ Facts.records count).get? _ = _
      rw [Facts.get?_insert, if_neg (Ne.symm other)]

/-- A fact that a text declares is the figure of its last directive that writes it. -/
theorem get?_declaredFacts (text : List Char) (aspect : Aspect) (quantity : String)
    : (declaredFacts text).get? (aspect.of quantity)
      = ((directives text).filterMap (Directive.figureFor? aspect quantity)).getLast? := by
  rw [get?_declaredFacts_of_ne (records_undeclarable aspect quantity), get?_foldl_declare]
  exact Option.or_none

/-- A text declares no fact that is neither declarable nor the number of records. -/
theorem get?_declaredFacts_of_undeclarable {fact : String} (free : Undeclarable fact)
    (other : fact ≠ Facts.records) (text : List Char)
    : (declaredFacts text).get? fact = none := by
  rw [get?_declaredFacts_of_ne other, get?_foldl_declare_of_undeclarable free]
  rfl

/-- Where all figures for a fact are told by parts of directives, the last such part tells it. -/
theorem get?_declaredFacts_of_parts {δ : Type} {aspect : Aspect} {quantity : String}
    {part : Directive → Option δ} {figure : δ → Float}
    (parts : ∀ directive : Directive,
      directive.figureFor? aspect quantity = (part directive).map figure)
    (text : List Char)
    : (declaredFacts text).get? (aspect.of quantity)
      = ((directives text).filterMap part).getLast?.map figure := by
  rw [get?_declaredFacts, funext parts, ← List.getLast?_map, List.map_filterMap]

/-- A fact that ranges alone write is told by the last range that the text declares. -/
theorem get?_declaredFacts_of_range (aspect : Aspect) {figure : RangeDirective → Float}
    (ranges : ∀ r, (Directive.range r).figure? aspect = some (figure r))
    (precisions : ∀ p, (Directive.precision p).figure? aspect = none) (text : List Char)
    (quantity : String)
    : (declaredFacts text).get? (aspect.of quantity)
      = (lastRange? text quantity).map figure := by
  refine get?_declaredFacts_of_parts (fun directive => ?_) text
  unfold Directive.figureFor?
  cases directive with
  | range r =>
      by_cases named : r.name = quantity <;>
        simp [named, Directive.rangeFor?, Directive.name, ranges]
  | precision p => simp [Directive.rangeFor?, precisions]

/-- The width that a text declares is the one of its last range. -/
theorem get?_declaredFacts_range (text : List Char) (quantity : String)
    : (declaredFacts text).get? (Facts.rangeOf quantity)
      = (lastRange? text quantity).map RangeDirective.width :=
  get?_declaredFacts_of_range .range (fun _ => rfl) (fun _ => rfl) text quantity

-----------------------------------------------------------------------------------------
-- Silence
-----------------------------------------------------------------------------------------

/-- No line of the text is a well-formed directive, and no number of records is told. -/
def Silent (text : List Char) : Prop :=
  (∀ line ∈ lines text, ∀ directive, Directive.ofLine? line ≠ some (.ok directive))
  ∧ recordCount? text = none

theorem Silent.directives {text : List Char} (silent : Silent text)
    : directives text = [] := by
  refine List.eq_nil_iff_forall_not_mem.mpr fun directive member => ?_
  obtain ⟨line, within, said⟩ := mem_directives.mp member
  exact silent.1 line within directive said

/-- A line that starts with no keyword is no directive. -/
theorem ofLine?_of_not_startsWith {line : List Char}
    (noRange : startsWith .range (trim line) = false)
    (noPrecision : startsWith .precision (trim line) = false)
    : Directive.ofLine? line = none := by
  simp [Directive.ofLine?, Directive.ofTrimmed?, noRange, noPrecision]

/-- No text, or a silent one, is read as the conservative facts. -/
theorem read_of_silent (t : Thresholds) {spec : Option (List Char)}
    (silent : ∀ text ∈ spec, Silent text)
    : t.read spec = .conservative := by
  cases spec with
  | none => rfl
  | some text =>
      have declared := silent text rfl
      simp [Thresholds.read, declared.directives, declared.2]

end RangeTuner.Spec
