import RangeTuner.Proofs.Learning.Checked
import RangeTuner.Proofs.Learning.Draws

/-! What a dataset shows of the regimes that it was drawn from. A figure stays where it was written
last, and what is certain or ruled out is labelled so, whatever the generator. Main statement: the
rows of a dataset are those of its regimes, in order, each as its regime says, and more regimes
behind them change none of them.
-/

namespace RangeTuner.Learning

open RangeTuner.Spec

-----------------------------------------------------------------------------------------
-- Figures of a row
-----------------------------------------------------------------------------------------

/-- The figure of a name in a row. -/
def figureOf? (row : List Float) (name : String) : Option Float :=
  (Inputs.columnOf? name).bind fun place => row[place]?

/-- A column has one name. -/
theorem columnOf?_inj {name other : String} {place : Nat}
    (named : Inputs.columnOf? name = some place) (named' : Inputs.columnOf? other = some place)
    : name = other := by
  obtain ⟨_, found, -⟩ := List.findIdx?_eq_some_iff_getElem.mp named
  obtain ⟨_, found', -⟩ := List.findIdx?_eq_some_iff_getElem.mp named'
  exact (of_decide_eq_true found).symm.trans (of_decide_eq_true found')

/-- The name of a column has a place in a row. -/
theorem exists_columnOf? {name : String} (known : name ∈ Inputs.columns)
    : ∃ place, Inputs.columnOf? name = some place ∧ place < Inputs.columns.length := by
  have present : (Inputs.columnOf? name).isSome = true := by
    simpa [Inputs.columnOf?, List.findIdx?_isSome] using known
  obtain ⟨place, named⟩ := Option.isSome_iff_exists.mp present
  exact ⟨place, named, (List.findIdx?_eq_some_iff_findIdx_eq.mp named).1⟩

namespace Regime

/-- A figure that is written is read. -/
theorem figureOf?_write {name : String} {row : List Float} (known : name ∈ Inputs.columns)
    (wide : row.length = Inputs.columns.length) (figure : Float)
    : figureOf? (write name figure row) name = some figure := by
  obtain ⟨place, named, within⟩ := exists_columnOf? known
  simp [figureOf?, write, named, wide, within]

/-- Writing another figure changes nothing. -/
theorem figureOf?_write_of_ne {name other : String} (apart : other ≠ name) (figure : Float)
    (row : List Float)
    : figureOf? (write other figure row) name = figureOf? row name := by
  unfold figureOf? write
  cases named : Inputs.columnOf? name with
  | none => rfl
  | some place =>
      cases named' : Inputs.columnOf? other with
      | none => rfl
      | some place' =>
          have differ : place' ≠ place := by
            rintro rfl
            exact apart (columnOf?_inj named' named)
          simp [List.getElem?_set_ne differ]

end Regime

-----------------------------------------------------------------------------------------
-- Jittered features
-----------------------------------------------------------------------------------------

/-- A whole number that a jitter draws: between its bounds, or the lower one if there is none
between.
-/
def Jitter.Draws (jitter : Jitter) (drawn : Int) : Prop :=
  if jitter.low < jitter.high then jitter.low ≤ drawn ∧ drawn < jitter.high
  else drawn = jitter.low

namespace Regime

/-- The columns that are written after the jittered features. -/
def writtenLast : List String :=
  [Facts.area, Facts.category, Facts.smallOf Axis.latitude.name,
    Facts.smallOf Axis.longitude.name, Facts.vehicle]

/-- In each column named by a jitter, and not written after the jitters, a row has what the last
jitter naming it draws.
-/
def ShowsJitters (jitters : List Jitter) (row : List Float) : Prop :=
  ∀ before jitter after, jitters = before ++ jitter :: after →
    (∀ later ∈ after, later.feature ≠ jitter.feature) →
    jitter.feature ∈ Inputs.columns → jitter.feature ∉ writtenLast →
    ∃ drawn, figureOf? row jitter.feature = some (.ofInt drawn) ∧ jitter.Draws drawn

theorem drawFeatures_append (before after : List Jitter) (row : List Float)
    : drawFeatures (before ++ after) row = drawFeatures before row >>= drawFeatures after := by
  induction before generalizing row with
  | nil => rfl
  | cons jitter rest ih => simp only [List.cons_append, drawFeatures, bind_assoc, ih]

/-- Figures of other names stay as they are, by induction on the jitters. -/
theorem drawFeatures_keeps {name : String} {jitters : List Jitter}
    (apart : ∀ jitter ∈ jitters, jitter.feature ≠ name) (row : List Float)
    : (drawFeatures jitters row).Always fun drawn => figureOf? drawn name = figureOf? row name := by
  induction jitters generalizing row with
  | nil => exact Draw.always_pure rfl
  | cons jitter rest ih =>
      obtain ⟨first, others⟩ := List.forall_mem_cons.mp apart
      refine (Draw.always_true _).bind fun drawn _ g => ?_
      exact (ih others _ g).trans (figureOf?_write_of_ne first _ _)

/-- The last jitter of a name is followed by other names, so its figure stays. -/
theorem drawFeatures_shows (jitters : List Jitter) {row : List Float}
    (wide : row.length = Inputs.columns.length)
    : (drawFeatures jitters row).Always (ShowsJitters jitters) := by
  intro g before jitter after parts last known visible
  subst parts
  suffices shown : (drawFeatures (before ++ jitter :: after) row).Always fun drawn =>
      ∃ value, figureOf? drawn jitter.feature = some (.ofInt value) ∧ jitter.Draws value from
    shown g
  rw [drawFeatures_append]
  refine (drawFeatures_always before row).bind fun row' wide' => ?_
  refine (Draw.always_between jitter.low jitter.high).bind fun value draws g => ?_
  have written := figureOf?_write known (wide'.trans wide) (.ofInt value)
  exact ⟨value, (drawFeatures_keeps last _ g).trans written, draws⟩

/-- What is written after the jitters hides none of the other columns. -/
theorem ShowsJitters.write {jitters : List Jitter} {row : List Float} {name : String}
    (shown : ShowsJitters jitters row) (hidden : name ∈ writtenLast) (figure : Float)
    : ShowsJitters jitters (write name figure row) := by
  intro before jitter after parts last known visible
  obtain ⟨drawn, read, draws⟩ := shown before jitter after parts last known visible
  have apart : name ≠ jitter.feature := fun same => visible (same ▸ hidden)
  exact ⟨drawn, (figureOf?_write_of_ne apart figure row).trans read, draws⟩

-----------------------------------------------------------------------------------------
-- Rows and labels
-----------------------------------------------------------------------------------------

/-- The flag of small ranges as a figure. -/
def smallFigure (regime : Regime) : Float :=
  if regime.smallRange then 1.0 else 0.0

/-- Rows show the jitters and the flag of small ranges. -/
theorem drawRow_shows (regime : Regime)
    : regime.drawRow.Always fun row =>
        ShowsJitters regime.codeFeatures row
        ∧ ∀ axis : Axis, figureOf? row (Facts.smallOf axis.name) = some regime.smallFigure := by
  have start : (Inputs.columns.map fun _ => (0.0 : Float)).length = Inputs.columns.length :=
    List.length_map _
  have features : (drawFeatures regime.codeFeatures (Inputs.columns.map fun _ => 0.0)).Always
      fun row => row.length = Inputs.columns.length ∧ ShowsJitters regime.codeFeatures row :=
    fun g => ⟨(drawFeatures_always _ _ g).trans start, drawFeatures_shows _ start g⟩
  refine features.bind fun row ⟨wide, shown⟩ => ?_
  iterate 3 refine (Draw.always_true _).bind fun _ _ => ?_
  refine Draw.always_pure ⟨?_, fun axis => ?_⟩
  · iterate 5 refine ShowsJitters.write ?_ (by decide) _
    exact shown
  · cases axis with
    | latitude =>
        rw [figureOf?_write_of_ne (by decide), figureOf?_write_of_ne (by decide),
          figureOf?_write (by decide) (by simpa [length_write] using wide)]
        rfl
    | longitude =>
        rw [figureOf?_write_of_ne (by decide),
          figureOf?_write (by decide) (by simpa [length_write] using wide)]
        rfl

/-- A label that a regime may give: its choice is free only between certain and ruled out. -/
structure Labels (regime : Regime) (optimization : Optimization) (label : Bool) : Prop where
  certain : ∀ p, regime.applies.get? optimization = some p → 1.0 ≤ p → label = true
  ruledOut : (∀ p, regime.applies.get? optimization = some p → p ≤ 0.0) → label = false

/-- A sample as its regime says. -/
structure Shows (regime : Regime) (sample : Sample) : Prop where
  wide : sample.row.length = 12
  jitters : ShowsJitters regime.codeFeatures sample.row
  small : ∀ axis : Axis,
    figureOf? sample.row (Facts.smallOf axis.name) = some regime.smallFigure
  labels : ∀ optimization, regime.Labels optimization (sample.label optimization)

/-- A label that is drawn is one that the regime may give. -/
theorem always_labels (regime : Regime) (optimization : Optimization)
    : (Draw.bernoulli ((regime.applies.get? optimization).getD 0.0)).Always
        (regime.Labels optimization) := by
  intro g
  obtain ⟨certain, ruledOut⟩ :=
    Draw.always_bernoulli ((regime.applies.get? optimization).getD 0.0) g
  refine ⟨fun p present great => certain ?_, fun small => ruledOut ?_⟩
  · rw [present]
    exact great
  · cases present : regime.applies.get? optimization with
    | none => decide
    | some p => exact small p present

/-- An entry of a list drawn for keys is found under its key, by induction on the keys. -/
theorem exists_lookup {α β : Type} [BEq α] [LawfulBEq α] {holds : α → β → Prop} {keys : List α}
    {entries : List (α × β)}
    (each : List.Forall₂ (fun key entry => entry.1 = key ∧ holds key entry.2) keys entries)
    {key : α} (member : key ∈ keys)
    : ∃ b, entries.lookup key = some b ∧ holds key b := by
  induction each with
  | nil => cases member
  | @cons first entry keys entries head tail ih =>
      obtain ⟨name, b⟩ := entry
      obtain ⟨rfl, held⟩ := head
      by_cases same : key = name
      · subst same
        exact ⟨b, by simp, held⟩
      · obtain ⟨b', found, held'⟩ := ih ((List.mem_cons.mp member).resolve_left same)
        refine ⟨b', ?_, held'⟩
        rw [List.lookup_cons, beq_false_of_ne same]
        exact found

/-- Each optimization has a label that the regime may give. -/
theorem drawLabels_always (regime : Regime)
    : regime.drawLabels.Always
        (List.Forall₂ (fun optimization entry => entry.1 = optimization
          ∧ regime.Labels optimization entry.2) Optimization.all) :=
  Draw.always_mapM (fun optimization => (always_labels regime optimization).bind
    fun _ may => Draw.always_pure ⟨rfl, may⟩) Optimization.all

/-- Every sample is as its regime says. -/
theorem drawSample_shows (regime : Regime)
    : regime.drawSample.Always regime.Shows := by
  intro g
  have wide := drawSample_always regime g
  suffices shown : regime.drawSample.Always fun sample =>
      (ShowsJitters regime.codeFeatures sample.row
        ∧ ∀ axis : Axis, figureOf? sample.row (Facts.smallOf axis.name) = some regime.smallFigure)
      ∧ ∀ optimization, regime.Labels optimization (sample.label optimization) by
    obtain ⟨⟨jitters, small⟩, labels⟩ := shown g
    exact ⟨wide, jitters, small, labels⟩
  refine regime.drawRow_shows.bind fun row shown => ?_
  refine regime.drawLabels_always.bind fun labels each => Draw.always_pure ⟨shown, ?_⟩
  intro optimization
  obtain ⟨label, found, may⟩ := exists_lookup each (Optimization.mem_all optimization)
  rw [Sample.label, found]
  exact may

/-- What is certain in a regime is a label of all its samples. -/
theorem labels_of_certain {regime : Regime} {block : List Sample} {p : Float}
    (shown : ∀ sample ∈ block, regime.Shows sample) (optimization : Optimization)
    (present : regime.applies.get? optimization = some p) (great : 1.0 ≤ p)
    : block.map (Sample.label · optimization) = List.replicate block.length true := by
  refine List.eq_replicate_iff.mpr ⟨List.length_map _, fun label member => ?_⟩
  obtain ⟨sample, among, rfl⟩ := List.mem_map.mp member
  exact ((shown sample among).labels optimization).certain p present great

/-- What is ruled out in a regime, or is not named by it, is a label of none of its samples. -/
theorem labels_of_ruledOut {regime : Regime} {block : List Sample}
    (shown : ∀ sample ∈ block, regime.Shows sample) (optimization : Optimization)
    (small : ∀ p, regime.applies.get? optimization = some p → p ≤ 0.0)
    : block.map (Sample.label · optimization) = List.replicate block.length false := by
  refine List.eq_replicate_iff.mpr ⟨List.length_map _, fun label member => ?_⟩
  obtain ⟨sample, among, rfl⟩ := List.mem_map.mp member
  exact ((shown sample among).labels optimization).ruledOut small

end Regime

-----------------------------------------------------------------------------------------
-- Datasets
-----------------------------------------------------------------------------------------

namespace Dataset

/-- Samples of regimes, in order: each regime has as many as it asks for, as it says. -/
def Shows (regimes : List Regime) (blocks : List (List Sample)) : Prop :=
  List.Forall₂ (fun regime block =>
    block.length = regime.samples ∧ ∀ sample ∈ block, regime.Shows sample) regimes blocks

/-- All samples are drawn regime by regime. -/
theorem drawAll_shows (regimes : List Regime)
    : (drawAll regimes).Always fun samples => ∃ blocks, Shows regimes blocks
        ∧ samples = blocks.flatten :=
  (Draw.always_mapM (fun regime => regime.drawSample_shows.replicate regime.samples) regimes).bind
    fun blocks each => Draw.always_pure ⟨blocks, each, rfl⟩

/-- There are no samples where no regime asks for some. -/
theorem Shows.flatten_eq_nil_iff {regimes : List Regime} {blocks : List (List Sample)}
    (shown : Shows regimes blocks)
    : blocks.flatten = [] ↔ ∀ regime ∈ regimes, regime.samples = 0 := by
  induction shown with
  | nil => simp
  | cons head tail ih =>
      rw [List.flatten_cons, List.append_eq_nil_iff, List.forall_mem_cons, ih, ← head.1,
        List.length_eq_zero_iff]

/-- More regimes are drawn behind the others. -/
theorem drawAll_append (regimes more : List Regime)
    : drawAll (regimes ++ more) = do
        let samples ← drawAll regimes
        return samples ++ (← drawAll more) := by
  simp only [drawAll, List.mapM_append, bind_assoc, pure_bind, List.flatten_append]

/-- A dataset begins with the rows of another and their labels. -/
structure Begins (longer dataset : Dataset) : Prop where
  rows : dataset.rows <+: longer.rows
  labels : ∀ optimization, ∃ labels more,
    dataset.labels.get? optimization = some labels
    ∧ longer.labels.get? optimization = some (labels ++ more)

theorem begins_ofSamples (samples more : List Sample)
    : (ofSamples (samples ++ more)).Begins (ofSamples samples) where
  rows := by simp [ofSamples]
  labels optimization := by
    refine ⟨_, more.map (Sample.label · optimization), rfl, ?_⟩
    simp [ofSamples, PerOptimization.tabulate]

/-- A dataset is what the samples of a seed make, if there are some. -/
theorem synthesize_eq_ok_iff {regimes : List Regime} {seed : UInt64} {dataset : Dataset}
    : synthesize regimes seed = .ok dataset
      ↔ ((drawAll regimes).run (.ofSeed seed)).1 ≠ []
        ∧ dataset = ofSamples ((drawAll regimes).run (.ofSeed seed)).1 := by
  unfold synthesize
  generalize ((drawAll regimes).run (.ofSeed seed)).1 = samples
  cases samples <;> simp [eq_comm]

theorem synthesize_eq_error_iff {regimes : List Regime} {seed : UInt64} {fault : Fault}
    : synthesize regimes seed = .error fault
      ↔ fault = .emptyTrainingSet ∧ ((drawAll regimes).run (.ofSeed seed)).1 = [] := by
  unfold synthesize
  generalize ((drawAll regimes).run (.ofSeed seed)).1 = samples
  cases samples <;> simp [eq_comm]

/-- Main statement: a dataset is drawn of a list of regimes without an access out of range, and
fails only where no regime asks for samples. Its rows are those of the regimes, in order, each of
them with its labels as its regime says; and more regimes leave them as they are.
-/
theorem synthesized_rows_show_their_regimes (regimes : List Regime) (seed : UInt64)
    : Checked.synthesize regimes seed = Checked.ofExcept (synthesize regimes seed)
      ∧ (∀ fault, synthesize regimes seed = .error fault
        ↔ fault = .emptyTrainingSet ∧ ∀ regime ∈ regimes, regime.samples = 0)
      ∧ ∀ dataset, synthesize regimes seed = .ok dataset →
        (∃ blocks, Shows regimes blocks
          ∧ dataset.rows = blocks.flatten.map Sample.row
          ∧ ∀ optimization, dataset.labels.get? optimization
            = some (blocks.flatten.map (Sample.label · optimization)))
        ∧ ∀ more, ∃ longer, synthesize (regimes ++ more) seed = .ok longer
          ∧ longer.Begins dataset := by
  obtain ⟨blocks, shown, drawn⟩ := drawAll_shows regimes (.ofSeed seed)
  refine ⟨Checked.synthesize_eq regimes seed, fun fault => ?_, fun dataset came => ?_⟩
  · rw [synthesize_eq_error_iff, drawn, shown.flatten_eq_nil_iff]
  · obtain ⟨some_samples, rfl⟩ := synthesize_eq_ok_iff.mp came
    refine ⟨⟨blocks, shown, ?_⟩, fun more => ?_⟩
    · rw [drawn]
      exact ⟨rfl, fun _ => rfl⟩
    · refine ⟨_, synthesize_eq_ok_iff.mpr ⟨?_, rfl⟩, ?_⟩
      · rw [drawAll_append]
        exact fun none => some_samples (List.append_eq_nil_iff.mp none).1
      · rw [drawAll_append]
        exact begins_ofSamples _ _

/-- Small zones are always labelled for the planar distance, and zones without bounds never. -/
theorem planar_labels_of_micro_and_global
    : ∃ dataset, synthesize [.micro, .global] 42 = .ok dataset
      ∧ dataset.labels.get? .planarDistance
        = some (List.replicate 50 true ++ List.replicate 20 false) := by
  obtain ⟨-, fails, gives⟩ := synthesized_rows_show_their_regimes [.micro, .global] 42
  cases came : synthesize [.micro, .global] 42 with
  | error fault =>
      have none := ((fails fault).mp came).2 .micro (by simp)
      cases none
  | ok dataset =>
      obtain ⟨⟨blocks, shown, -, labels⟩, -⟩ := gives dataset came
      refine ⟨dataset, rfl, (labels .planarDistance).trans ?_⟩
      obtain ⟨micro, rest, ⟨many, small⟩, others, rfl⟩ := List.forall₂_cons_left_iff.mp shown
      obtain ⟨global, none, ⟨many', unbounded⟩, last, rfl⟩ := List.forall₂_cons_left_iff.mp others
      obtain rfl := List.forall₂_nil_left_iff.mp last
      have always := Regime.labels_of_certain small .planarDistance rfl (by decide)
      have never := Regime.labels_of_ruledOut unbounded .planarDistance fun p present => by
        obtain rfl := Option.some.inj present
        decide
      rw [many] at always
      rw [many'] at never
      simp only [List.flatten_cons, List.flatten_nil, List.append_nil, List.map_append, always,
        never]
      rfl

end Dataset

end RangeTuner.Learning
