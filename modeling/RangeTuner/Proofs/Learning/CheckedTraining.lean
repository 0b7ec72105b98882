import RangeTuner.Proofs.Learning.BankRuns
import RangeTuner.Proofs.Learning.CheckedFits

/-! Training with every access checked: the holdout, the learners and the bank. A training stops
where its dataset says, and out of range only where labels are too few. Main statement: settings
without a problem always train a bank, and nothing is accessed out of range on the way.
-/

namespace RangeTuner.Learning

-----------------------------------------------------------------------------------------
-- Where a training stops
-----------------------------------------------------------------------------------------

namespace Dataset

/-- Some rows, all of one width. -/
structure Regular (width : Nat) (dataset : Dataset) : Prop where
  rows_ne_nil : dataset.rows ≠ []
  wide : ∀ row ∈ dataset.rows, row.length = width

/-- An optimization has a label for each row, and perhaps others behind them. -/
def reaches (dataset : Dataset) (optimization : Optimization) : Bool :=
  (dataset.labels.get? optimization).any fun labels => dataset.rows.length ≤ labels.length

/-- The first optimization that has not a label for each row. -/
def firstShort? (dataset : Dataset) : Option Optimization :=
  Optimization.all.find? fun optimization => !dataset.reaches optimization

/-- Where the training of an optimization stops that has not a label for each row. -/
def shortage (dataset : Dataset) (optimization : Optimization) : Halt :=
  match dataset.labels.get? optimization with
  | none => .fault (unlabelled optimization)
  | some _ => .outOfRange

/-- Where a training of a bank of so many columns stops, if it does. -/
def halt? (width : Nat) (dataset : Dataset) : Option Halt :=
  if dataset.rows.isEmpty then some (.fault .emptyTrainingSet)
  else
    match dataset.rows.find? fun row => row.length ≠ width with
    | some row => some (.fault (.shapeMismatch width row.length))
    | none => dataset.firstShort?.map dataset.shortage

theorem reaches_iff {dataset : Dataset} {optimization : Optimization}
    : dataset.reaches optimization = true
      ↔ ∃ labels, dataset.labels.get? optimization = some labels
        ∧ dataset.rows.length ≤ labels.length := by
  cases labelled : dataset.labels.get? optimization <;> simp [reaches, labelled]

/-- A training stops at a fault of its own on a dataset that is not regular. -/
theorem halt?_of_not_regular {dataset : Dataset} {width : Nat}
    (irregular : ¬dataset.Regular width)
    : ∃ fault, dataset.halt? width = some (.fault fault) := by
  unfold halt?
  split
  · exact ⟨_, rfl⟩
  next some_rows =>
    split
    · exact ⟨_, rfl⟩
    next wide => exact absurd ⟨by simpa using some_rows, by simpa using wide⟩ irregular

theorem halt?_of_regular {dataset : Dataset} {width : Nat} (regular : dataset.Regular width)
    : dataset.halt? width = dataset.firstShort?.map dataset.shortage := by
  have wide : dataset.rows.find? (fun row => row.length ≠ width) = none := by
    simpa using regular.wide
  rw [halt?, if_neg (by simpa using regular.rows_ne_nil), wide]

theorem halt?_eq_fault_iff {dataset : Dataset} {width : Nat}
    : (∃ fault, dataset.halt? width = some (.fault fault))
      ↔ ¬dataset.Regular width
        ∨ ∃ optimization, dataset.firstShort? = some optimization
          ∧ dataset.labels.get? optimization = none := by
  by_cases regular : dataset.Regular width
  · cases short : dataset.firstShort? with
    | none => simp [halt?_of_regular regular, regular, short]
    | some optimization =>
        cases labelled : dataset.labels.get? optimization <;>
          simp [halt?_of_regular regular, regular, short, shortage, labelled]
  · simp [halt?_of_not_regular regular, regular]

theorem halt?_eq_outOfRange_iff {dataset : Dataset} {width : Nat}
    : dataset.halt? width = some .outOfRange
      ↔ dataset.Regular width
        ∧ ∃ optimization labels, dataset.firstShort? = some optimization
          ∧ dataset.labels.get? optimization = some labels := by
  by_cases regular : dataset.Regular width
  · cases short : dataset.firstShort? with
    | none => simp [halt?_of_regular regular, short]
    | some optimization =>
        cases labelled : dataset.labels.get? optimization <;>
          simp [halt?_of_regular regular, regular, short, shortage, labelled]
  · obtain ⟨fault, told⟩ := halt?_of_not_regular regular
    simp [told, regular]

theorem halt?_eq_none_iff {dataset : Dataset} {width : Nat}
    : dataset.halt? width = none
      ↔ dataset.Regular width ∧ dataset.firstShort? = none := by
  by_cases regular : dataset.Regular width
  · simp [halt?_of_regular regular, regular]
  · obtain ⟨fault, told⟩ := halt?_of_not_regular regular
    simp [told, regular]

/-- Labels that reach as far as the rows are not read out of range. -/
theorem halt?_ne_outOfRange {dataset : Dataset} (reach : dataset.LabelsReach) (width : Nat)
    : dataset.halt? width ≠ some .outOfRange := by
  intro told
  obtain ⟨-, optimization, labels, short, labelled⟩ := halt?_eq_outOfRange_iff.mp told
  have reached : dataset.reaches optimization = true :=
    reaches_iff.mpr ⟨labels, labelled, reach optimization labels labelled⟩
  simpa [reached] using List.find?_some short

end Dataset

namespace Checked

variable {α β : Type}

/-- A checked computation and its form without the checks both come to one result, or the checked
one stops as told; at a fault, they both do.
-/
inductive Stops (checked : Checked α) (plain : Except Fault α) : Option Halt → Prop where
  | never (a : α) (checked_eq : checked = .ok a) (plain_eq : plain = .ok a)
    : Stops checked plain none
  | fault (fault : Fault) (checked_eq : checked = .error (.fault fault))
    (plain_eq : plain = .error fault)
    : Stops checked plain (some (.fault fault))
  | outOfRange (checked_eq : checked = .error .outOfRange)
    : Stops checked plain (some .outOfRange)

/-- A checked computation stops where it is told to. -/
theorem Stops.eq_error_iff {checked : Checked α} {plain : Except Fault α} {told : Option Halt}
    (stops : Stops checked plain told) (halt : Halt)
    : checked = .error halt ↔ told = some halt := by
  cases stops with
  | never a checked_eq plain_eq => simp [checked_eq]
  | fault fault checked_eq plain_eq => simp [checked_eq]
  | outOfRange checked_eq => simp [checked_eq]

variable {checked : Checked α} {plain : Except Fault α} {checkedNext : α → Checked β}
  {next : α → Except Fault β}

/-- Where the first of two computations stops, both of them do. -/
theorem Stops.bind_halt {halt : Halt} (first : Stops checked plain (some halt))
    : Stops (checked >>= checkedNext) (plain >>= next) (some halt) := by
  cases first with
  | fault fault checked_eq plain_eq =>
      subst checked_eq plain_eq
      exact .fault fault rfl rfl
  | outOfRange checked_eq =>
      subst checked_eq
      exact .outOfRange rfl

/-- Where the first of two computations does not stop, it is for the second to stop. -/
theorem Stops.bind {halt : Option Halt} (first : Stops checked plain none)
    (second : ∀ a, Stops (checkedNext a) (next a) halt)
    : Stops (checked >>= checkedNext) (plain >>= next) halt := by
  cases first with
  | never a checked_eq plain_eq =>
      subst checked_eq plain_eq
      exact second a

/-- A second computation that never stops changes nothing about where two computations stop. -/
theorem Stops.map {halt : Option Halt} (first : Stops checked plain halt) (f : α → β)
    : Stops (checked >>= fun a => .ok (f a)) (plain >>= fun a => .ok (f a)) halt := by
  cases halt with
  | none => exact first.bind fun a => .never (f a) rfl rfl
  | some halt => exact first.bind_halt

/-- What stops, but not out of range, does what its form without the checks does. -/
theorem Stops.eq_ofExcept {told : Option Halt} (stops : Stops checked plain told)
    (inRange : told ≠ some .outOfRange)
    : checked = ofExcept plain := by
  cases stops with
  | never a checked_eq plain_eq =>
      rw [checked_eq, plain_eq]
      rfl
  | fault fault checked_eq plain_eq =>
      rw [checked_eq, plain_eq]
      rfl
  | outOfRange checked_eq => exact absurd rfl inRange

-----------------------------------------------------------------------------------------
-- The holdout
-----------------------------------------------------------------------------------------

/-- A random holdout, cut off a shuffled list that has to be long enough. -/
def drawHoldout (rows : Nat) (fraction : Float) (seed : UInt64) : Checked Holdout := do
  let drawn ← (shuffle (List.range rows)).run (.ofStream seed Holdout.stream)
  let size := Holdout.size rows fraction
  if size ≤ drawn.1.length then .ok ⟨drawn.1.drop size, drawn.1.take size⟩
  else .error .outOfRange

/-- Fewer rows are held out than there are, so a shuffled list of them is always long enough. -/
theorem drawHoldout_eq_ok (rows : Nat) (fraction : Float) (seed : UInt64)
    : drawHoldout rows fraction seed = .ok (Holdout.draw rows fraction seed) := by
  have length := Draw.length_shuffle_range rows (.ofStream seed Holdout.stream)
  have few := Holdout.size_le rows fraction
  exact bind_of_ok (follows_shuffle _ _) (if_pos (by omega))

/-- Places that are there are picked. -/
theorem pick_eq {items : Array α} {places : List Nat}
    (within : ∀ place ∈ places, place < items.size)
    : pick items places = ofExcept (Bank.pick items places) := by
  induction places with
  | nil => rfl
  | cons place rest ih =>
      obtain ⟨first, others⟩ := List.forall_mem_cons.mp within
      have here : items[place]? = some items[place] := by simp [first]
      have later : pick items rest = ofExcept (Bank.pick items rest) := ih others
      rw [pick, Bank.pick, List.mapM_cons, List.mapM_cons, here]
      refine bind_of_ok rfl ?_
      exact (congrArg (· >>= _) later).trans (ofExcept_bind fun _ _ => rfl)

/-- What is picked was there. -/
theorem mem_of_pick {items : Array α} {places : List Nat} {picked : List α}
    (came : Bank.pick items places = .ok picked)
    : ∀ item ∈ picked, item ∈ items := by
  intro item member
  obtain ⟨place, stood⟩ := exists_of_mapM_eq_ok came item member
  split at stood
  next found => exact Except.ok.inj stood ▸ Array.mem_of_getElem? found
  next => cases stood

theorem exists_pick {items : Array α} {places : List Nat}
    (within : ∀ place ∈ places, place < items.size)
    : ∃ picked, pick items places = .ok picked ∧ places.length = picked.length
      ∧ ∀ item ∈ picked, item ∈ items := by
  obtain ⟨picked, came, length⟩ := Bank.pick_eq_ok within
  refine ⟨picked, ?_, length, mem_of_pick came⟩
  rw [pick_eq within, came]
  rfl

/-- Places are not picked where one of them is missing. -/
theorem pick_of_missing {items : Array α} {places : List Nat}
    (missing : ∃ place ∈ places, items.size ≤ place)
    : pick items places = .error .outOfRange := by
  induction places with
  | nil => simp at missing
  | cons place rest ih =>
      rw [pick, List.mapM_cons]
      cases here : items[place]? with
      | none => rfl
      | some item =>
          have below : place < items.size := (Array.getElem?_eq_some_iff.mp here).1
          have later : ∃ place ∈ rest, items.size ≤ place := by
            simpa [Nat.not_le.mpr below] using missing
          refine bind_of_ok rfl ?_
          exact congrArg (· >>= _) (ih later)

-----------------------------------------------------------------------------------------
-- Learners
-----------------------------------------------------------------------------------------

/-- Trains the learner of one optimization and tries it on the rows held out. -/
def trainOne (settings : TrainingSettings) (dataset : Dataset) (rows : Array (List Float))
    (holdout : Holdout) (optimization : Optimization)
    : Checked (Learner × Option Float) := do
  let labels ← match dataset.labels.get? optimization with
    | some labels => .ok labels.toArray
    | none => .error (.fault (Dataset.unlabelled optimization))
  let fresh := Learner.untrained optimization.learner settings optimization.index.toUInt64
  let learner ← fit fresh (← pick rows holdout.training) (← pick labels holdout.training)
  return (learner,
    Bank.accuracy? learner (← pick rows holdout.heldOut) (← pick labels holdout.heldOut))

/-- Trains the learners of a list of optimizations, in order. -/
def trainAll (settings : TrainingSettings) (dataset : Dataset) (rows : Array (List Float))
    (holdout : Holdout)
    : List Optimization → Checked (List (Optimization × Learner × Option Float))
  | [] => return []
  | optimization :: rest => do
      let trained ← trainOne settings dataset rows holdout optimization
      return (optimization, trained) :: (← trainAll settings dataset rows holdout rest)

variable (settings : TrainingSettings) {dataset : Dataset} {rows : Array (List Float)}
  {holdout : Holdout} {width : Nat}

/-- Labels that reach as far as the rows are read in range. -/
theorem trainOne_eq (all : rows.size = dataset.rows.length) (split : holdout.Splits rows.size)
    (wide : ∀ row ∈ rows, row.length = width) {optimization : Optimization}
    {labels : List Bool} (labelled : dataset.labels.get? optimization = some labels)
    (enough : dataset.rows.length ≤ labels.length)
    : trainOne settings dataset rows holdout optimization
      = ofExcept (Bank.trainOne settings dataset rows holdout optimization) := by
  have enough : rows.size ≤ labels.toArray.size := by
    simpa [all] using enough
  have training : ∀ place ∈ holdout.training, place < labels.toArray.size :=
    fun place member => Nat.lt_of_lt_of_le (split.training_lt place member) enough
  have heldOut : ∀ place ∈ holdout.heldOut, place < labels.toArray.size :=
    fun place member => Nat.lt_of_lt_of_le (split.heldOut_lt place member) enough
  rw [trainOne, Bank.trainOne, labelled]
  refine bind_of_ok rfl ?_
  dsimp only
  rw [pick_eq split.training_lt, pick_eq training, pick_eq split.heldOut_lt, pick_eq heldOut]
  refine ofExcept_bind fun shownRows picked => ofExcept_bind fun shownLabels _ => ?_
  rw [fit_eq _ _ fun row member => wide row (mem_of_pick picked row member)]
  refine ofExcept_bind fun learner _ => ?_
  exact ofExcept_bind fun _ _ => ofExcept_bind fun _ _ => rfl

/-- Labels that end before the last row are read where there are none: in training, or else when
the learner is tried on the rows held out.
-/
theorem trainOne_of_short (split : holdout.Splits rows.size)
    (covered : ∀ place < rows.size, place ∈ holdout.training ∨ place ∈ holdout.heldOut)
    (wide : ∀ row ∈ rows, row.length = width) {optimization : Optimization}
    {labels : List Bool} (labelled : dataset.labels.get? optimization = some labels)
    (short : labels.length < rows.size)
    : trainOne settings dataset rows holdout optimization = .error .outOfRange := by
  obtain ⟨shownRows, pickedRows, rowsLength, shown⟩ := exists_pick split.training_lt
  rw [trainOne, labelled]
  by_cases enough : ∀ place ∈ holdout.training, place < labels.toArray.size
  · obtain ⟨shownLabels, pickedLabels, labelsLength, -⟩ := exists_pick enough
    obtain ⟨askedRows, pickedAsked, -⟩ := exists_pick split.heldOut_lt
    have some_rows : shownRows ≠ [] := by
      rintro rfl
      exact split.training_ne_nil (List.eq_nil_of_length_eq_zero rowsLength)
    obtain ⟨learner, fitted, -⟩ :=
      (Learner.untrained optimization.learner settings optimization.index.toUInt64).fit_eq_ok
        some_rows (rowsLength.symm.trans labelsLength)
    have heldOut : labels.length ∈ holdout.heldOut :=
      (covered _ short).resolve_left fun member => Nat.lt_irrefl _ (enough _ member)
    have missing : pick labels.toArray holdout.heldOut = .error .outOfRange :=
      pick_of_missing ⟨_, heldOut, Nat.le_refl _⟩
    have fits := fit_eq (Learner.untrained optimization.learner settings
      optimization.index.toUInt64) shownLabels fun row member => wide row (shown row member)
    rw [fitted] at fits
    simp only [pickedRows, pickedLabels, fits, pickedAsked, missing, ofExcept, Except.mapError,
      bind, Except.bind]
  · have missing : pick labels.toArray holdout.training = .error .outOfRange :=
      pick_of_missing (by simpa using enough)
    simp only [pickedRows, missing, bind, Except.bind]

/-- A learner with a label for each row is trained. -/
theorem trainOne_of_reaches (all : rows.size = dataset.rows.length)
    (split : holdout.Splits rows.size) (wide : ∀ row ∈ rows, row.length = width)
    {optimization : Optimization} (reached : dataset.reaches optimization = true)
    : Stops (trainOne settings dataset rows holdout optimization)
        (Bank.trainOne settings dataset rows holdout optimization) none := by
  obtain ⟨labels, labelled, enough⟩ := Dataset.reaches_iff.mp reached
  obtain ⟨learner, accuracy, trained, -⟩ :=
    Bank.trainOne_of_labels settings all split labelled enough
  have same := trainOne_eq settings all split wide labelled enough
  rw [trained] at same
  exact .never _ same trained

/-- A learner without a label for each row is not trained. -/
theorem trainOne_of_not_reaches (all : rows.size = dataset.rows.length)
    (split : holdout.Splits rows.size)
    (covered : ∀ place < rows.size, place ∈ holdout.training ∨ place ∈ holdout.heldOut)
    (wide : ∀ row ∈ rows, row.length = width) {optimization : Optimization}
    (unreached : dataset.reaches optimization = false)
    : Stops (trainOne settings dataset rows holdout optimization)
        (Bank.trainOne settings dataset rows holdout optimization)
        (some (dataset.shortage optimization)) := by
  cases labelled : dataset.labels.get? optimization with
  | none =>
      have stopped : trainOne settings dataset rows holdout optimization
          = .error (.fault (Dataset.unlabelled optimization)) := by
        rw [trainOne, labelled]
        rfl
      rw [Dataset.shortage, labelled]
      exact .fault _ stopped (Bank.trainOne_of_no_labels settings labelled)
  | some labels =>
      have short : labels.length < rows.size := by
        simpa [Dataset.reaches, labelled, all] using unreached
      rw [Dataset.shortage, labelled]
      exact .outOfRange (trainOne_of_short settings split covered wide labelled short)

/-- The first learner without a label for each row stops the training of them all, by induction on
the optimizations.
-/
theorem trainAll_stops (all : rows.size = dataset.rows.length)
    (split : holdout.Splits rows.size)
    (covered : ∀ place < rows.size, place ∈ holdout.training ∨ place ∈ holdout.heldOut)
    (wide : ∀ row ∈ rows, row.length = width) (optimizations : List Optimization)
    : Stops (trainAll settings dataset rows holdout optimizations)
        (Bank.trainAll settings dataset rows holdout optimizations)
        ((optimizations.find? fun optimization => !dataset.reaches optimization).map
          dataset.shortage) := by
  induction optimizations with
  | nil => exact .never [] rfl rfl
  | cons optimization rest ih =>
      cases reached : dataset.reaches optimization with
      | false =>
          rw [List.find?_cons_of_pos (by simp [reached])]
          exact (trainOne_of_not_reaches settings all split covered wide reached).bind_halt
      | true =>
          rw [List.find?_cons_of_neg (by simp [reached])]
          refine (trainOne_of_reaches settings all split wide reached).bind fun trained => ?_
          exact ih.map ((optimization, trained) :: ·)

-----------------------------------------------------------------------------------------
-- Banks
-----------------------------------------------------------------------------------------

/-- The bank trained on a dataset. -/
def trainOn (bank : Bank) (dataset : Dataset) : Checked Bank :=
  if dataset.rows.isEmpty then .error (.fault .emptyTrainingSet)
  else
    match dataset.rows.find? fun row => row.length ≠ bank.columns.length with
    | some row => .error (.fault (.shapeMismatch bank.columns.length row.length))
    | none => do
        let standardizer := Standardizer.fit dataset.rows
        let rows := (dataset.rows.map standardizer.transform).toArray
        let holdout ← drawHoldout rows.size bank.settings.holdoutFraction bank.settings.seed
        let trained ← trainAll bank.settings dataset rows holdout Optimization.all
        return {
          bank with
          standardizer := some standardizer
          learners := .ofList (trained.map fun (optimization, learner, _) =>
            (optimization, learner))
          summary := some {
            samples := dataset.rows.length
            columns := bank.columns.length
            seed := bank.settings.seed
            holdoutAccuracy := .ofList (trained.map fun (optimization, _, accuracy) =>
              (optimization, accuracy)) } }

/-- A trained bank for these settings. -/
def trained (settings : TrainingSettings) : Checked Bank := do
  ofExcept (refuse settings.problem?)
  trainOn (.untrained settings) (← synthesize settings.regimes settings.seed)

theorem length_scale_fit (rows : List (List Float))
    : (Standardizer.fit rows).scale.length = (rows.headD []).length := by
  have zipped (step : Float → Float × Float → Float) (zeros mean : List Float)
      : (rows.foldl (fun sums row => accumulate step sums (row.zip mean)) zeros).length
        = zeros.length := by
    rw [← List.foldl_map (f := fun row : List Float => row.zip mean)]
    exact length_foldl_accumulate _ _ zeros
  rw [Standardizer.fit, List.length_map, zipped, List.length_map]

/-- Standardized rows have the width of the rows. -/
theorem length_transform {rows : List (List Float)} {width : Nat} (filled : rows ≠ [])
    (wide : ∀ row ∈ rows, row.length = width)
    : ∀ row ∈ (rows.map (Standardizer.fit rows).transform).toArray, row.length = width := by
  have first : (rows.headD []).length = width := by
    obtain ⟨row, rest, rfl⟩ := List.exists_cons_of_ne_nil filled
    exact wide row List.mem_cons_self
  have mean : (Standardizer.fit rows).mean.length = width :=
    (Standardizer.width_fit rows).trans first
  have scale : (Standardizer.fit rows).scale.length = width := (length_scale_fit rows).trans first
  intro standardized member
  obtain ⟨row, listed, rfl⟩ := List.mem_map.mp (List.mem_toArray.mp member)
  simp [Standardizer.transform, wide row listed, mean, scale]

/-- A training of a bank stops where its dataset says. -/
theorem trainOn_stops (bank : Bank) (dataset : Dataset)
    : Stops (trainOn bank dataset) (bank.trainOn dataset)
        (dataset.halt? bank.columns.length) := by
  unfold trainOn Bank.trainOn Dataset.halt?
  split
  next => exact .fault _ rfl rfl
  next some_rows =>
    have filled : dataset.rows ≠ [] := by simpa using some_rows
    cases narrow : dataset.rows.find? fun row => row.length ≠ bank.columns.length with
    | some row => exact .fault _ rfl rfl
    | none =>
        have wide : ∀ row ∈ dataset.rows, row.length = bank.columns.length := by
          simpa using narrow
        have size := Bank.size_standardized dataset (.fit dataset.rows)
        have split := Holdout.draw_splits (size ▸ List.length_pos_iff.mpr filled)
          bank.settings.holdoutFraction bank.settings.seed
        have drawn := drawHoldout_eq_ok
          (dataset.rows.map (Standardizer.fit dataset.rows).transform).toArray.size
          bank.settings.holdoutFraction bank.settings.seed
        have learned := trainAll_stops bank.settings size split
          (fun place below => Holdout.mem_draw below _ _) (length_transform filled wide)
          Optimization.all
        dsimp only
        rw [drawn]
        exact learned.map _

/-- Where labels reach as far as rows, a bank is trained on a dataset without an access out of
range, whatever the dataset.
-/
theorem trainOn_eq (bank : Bank) (reach : dataset.LabelsReach)
    : trainOn bank dataset = ofExcept (bank.trainOn dataset) :=
  (trainOn_stops bank dataset).eq_ofExcept (Dataset.halt?_ne_outOfRange reach _)

/-- Under no settings anything is accessed out of range. -/
theorem trained_eq (settings : TrainingSettings)
    : trained settings = ofExcept (Bank.trained settings) := by
  rw [trained, Bank.trained, Bank.train, synthesize_eq]
  refine ofExcept_bind fun _ _ => ofExcept_bind fun dataset drawn => ?_
  refine trainOn_eq (.untrained settings) ?_
  unfold Dataset.synthesize at drawn
  dsimp only at drawn
  split at drawn
  next => cases drawn
  next => exact Except.ok.inj drawn ▸ Dataset.labelsReach_ofSamples _

end Checked

namespace Bank

/-- Main statement: settings without a problem train a bank, with every access on the way in
range, and that bank has a prediction for each of the six optimizations on all inputs.
-/
theorem trained_of_sound (settings : TrainingSettings) (sound : settings.problem? = none)
    : ∃ bank, Bank.trained settings = .ok bank
      ∧ Checked.trained settings = .ok bank
      ∧ bank.isTrained = true
      ∧ ∀ inputs, ∃ predictions, bank.predict inputs = .ok predictions
        ∧ predictions.toList.length = 6
        ∧ predictions.toList.map Prod.fst = Optimization.all
        ∧ ∀ optimization, ∃ prediction, predictions.get? optimization = some prediction
          ∧ prediction.optimization = optimization := by
  obtain ⟨dataset, trains, reach, whole⟩ :
      ∃ dataset, (untrained settings).train = (untrained settings).trainOn dataset
        ∧ dataset.LabelsReach
        ∧ dataset.fault? Inputs.columns.length = none :=
    train_of_sound sound
  obtain ⟨bank, came, -, -, full⟩ :
      ∃ bank, (untrained settings).trainOn dataset = .ok bank
        ∧ bank.settings = settings
        ∧ bank.columns = Inputs.columns
        ∧ bank.FullyTrained :=
    trainOn_of_no_fault reach whole
  have trained : Bank.trained settings = .ok bank := trains.trans came
  refine ⟨bank, trained, ?_, full.isTrained, fun inputs => ?_⟩
  · rw [Checked.trained_eq, trained]
    rfl
  · obtain ⟨predictions, predicted, all, each⟩ := full.predict_eq_ok inputs
    refine ⟨predictions, predicted, ?_, all, fun optimization => ?_⟩
    · have six := congrArg List.length all
      rwa [List.length_map] at six
    · obtain ⟨prediction, present, named, -⟩ := each optimization
      exact ⟨prediction, present, named⟩

theorem trained_of_standard
    : ∃ bank, Bank.trained .standard = .ok bank ∧ Checked.trained .standard = .ok bank := by
  obtain ⟨bank, came, checked, -⟩ := trained_of_sound .standard (by decide +kernel)
  exact ⟨bank, came, checked⟩

end Bank

end RangeTuner.Learning
