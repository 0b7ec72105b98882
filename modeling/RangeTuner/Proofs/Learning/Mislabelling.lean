import RangeTuner.Proofs.Learning.CheckedTraining

/-! Training on datasets whose labels do not fit their rows. Labels are read only at the places of
the holdout, and these are the places of the rows: labels behind those of the rows are never read,
and where labels are too few, one is read that is not there. Main statement: which datasets are
rejected, and what becomes of the others.
-/

namespace RangeTuner.Learning

namespace Dataset

/-- Some optimization has no labels, or not one label for each row. -/
def Mislabelled (dataset : Dataset) : Prop :=
  ∃ optimization, ∀ labels, dataset.labels.get? optimization = some labels
    → labels.length ≠ dataset.rows.length

/-- The dataset without the labels behind those of the rows. -/
def trimmed (dataset : Dataset) : Dataset :=
  { dataset with labels := dataset.labels.map (·.take dataset.rows.length) }

/-- Labels do not fit the rows where some are missing, or some stand behind those of the rows. -/
theorem mislabelled_iff {dataset : Dataset}
    : dataset.Mislabelled
      ↔ (∃ optimization, dataset.firstShort? = some optimization)
        ∨ ∃ optimization labels, dataset.labels.get? optimization = some labels
          ∧ dataset.rows.length < labels.length := by
  constructor
  · rintro ⟨optimization, unequal⟩
    cases reached : dataset.reaches optimization with
    | false =>
        have short : dataset.firstShort?.isSome := by
          rw [firstShort?, List.find?_isSome]
          exact ⟨optimization, optimization.mem_all, by simp [reached]⟩
        exact .inl (Option.isSome_iff_exists.mp short)
    | true =>
        obtain ⟨labels, labelled, enough⟩ := reaches_iff.mp reached
        have other := unequal labels labelled
        exact .inr ⟨optimization, labels, labelled, by omega⟩
  · rintro (⟨optimization, first⟩ | ⟨optimization, labels, labelled, surplus⟩)
    · refine ⟨optimization, fun labels labelled same => ?_⟩
      have reached : dataset.reaches optimization = true :=
        reaches_iff.mpr ⟨labels, labelled, Nat.le_of_eq same.symm⟩
      simpa [reached] using List.find?_some first
    · refine ⟨optimization, fun others labelled' => ?_⟩
      obtain rfl := Option.some.inj (labelled.symm.trans labelled')
      exact Nat.ne_of_gt surplus

end Dataset

namespace Checked

-----------------------------------------------------------------------------------------
-- Labels that are never read
-----------------------------------------------------------------------------------------

variable (settings : TrainingSettings) {dataset : Dataset} {rows : Array (List Float)}
  {holdout : Holdout}

/-- What is picked depends on nothing but what stands at the places. -/
theorem pick_congr {α : Type} {items others : Array α} {places : List Nat}
    (same : ∀ place ∈ places, items[place]? = others[place]?)
    : pick items places = pick others places := by
  induction places with
  | nil => rfl
  | cons place rest ih =>
      obtain ⟨first, later⟩ := List.forall_mem_cons.mp same
      have rest_eq : rest.mapM (fun place => found items[place]?)
          = rest.mapM fun place => found others[place]? := ih later
      rw [pick, pick, List.mapM_cons, List.mapM_cons, first, rest_eq]

/-- Labels behind those of the rows are never read. -/
theorem trainOne_trimmed (all : rows.size = dataset.rows.length)
    (split : holdout.Splits rows.size) (optimization : Optimization)
    : trainOne settings dataset.trimmed rows holdout optimization
      = trainOne settings dataset rows holdout optimization := by
  cases labelled : dataset.labels.get? optimization with
  | none => simp only [trainOne, Dataset.trimmed, PerOptimization.map, labelled, Option.map_none]
  | some labels =>
      have cut {places : List Nat} (within : ∀ place ∈ places, place < rows.size)
          : pick (labels.take dataset.rows.length).toArray places
            = pick labels.toArray places := by
        refine pick_congr fun place member => ?_
        have below : place < dataset.rows.length := all ▸ within place member
        simp [below]
      simp only [trainOne, Dataset.trimmed, PerOptimization.map, labelled, Option.map_some]
      refine bind_of_ok rfl ?_
      rw [cut split.training_lt, cut split.heldOut_lt]
      rfl

theorem trainAll_trimmed (all : rows.size = dataset.rows.length)
    (split : holdout.Splits rows.size) (optimizations : List Optimization)
    : trainAll settings dataset.trimmed rows holdout optimizations
      = trainAll settings dataset rows holdout optimizations := by
  induction optimizations with
  | nil => rfl
  | cons optimization rest ih =>
      rw [trainAll, trainAll, trainOne_trimmed settings all split, ih]

theorem trainOn_trimmed (bank : Bank) (dataset : Dataset)
    : trainOn bank dataset.trimmed = trainOn bank dataset := by
  have rows_eq : dataset.trimmed.rows = dataset.rows := rfl
  unfold trainOn
  rw [rows_eq]
  split
  · rfl
  next some_rows =>
    cases dataset.rows.find? fun row => row.length ≠ bank.columns.length with
    | some row => rfl
    | none =>
        have size := Bank.size_standardized dataset (.fit dataset.rows)
        have positive : 0 < dataset.rows.length := by
          simpa [List.length_pos_iff] using some_rows
        have split := Holdout.draw_splits (size ▸ positive)
          bank.settings.holdoutFraction bank.settings.seed
        dsimp only
        rw [drawHoldout_eq_ok]
        refine bind_of_ok rfl ?_
        rw [trainAll_trimmed bank.settings size split]
        rfl

end Checked

-----------------------------------------------------------------------------------------
-- Datasets that are rejected
-----------------------------------------------------------------------------------------

namespace Bank

/-- A training on a dataset is refused with a fault, and the bank stays as it is. -/
def Rejects (bank : Bank) (dataset : Dataset) : Prop :=
  ∃ fault, Checked.trainOn bank dataset = .error (.fault fault)
    ∧ bank.serve (.trainOn dataset) = (bank, .error fault)

/-- A training on a dataset succeeds, and the bank is the trained one. -/
def Accepts (bank : Bank) (dataset : Dataset) : Prop :=
  ∃ trained, Checked.trainOn bank dataset = .ok trained
    ∧ bank.serve (.trainOn dataset) = (trained, .ok (.summary trained.summary))

variable {bank : Bank} {dataset : Dataset}

theorem rejects_iff
    : bank.Rejects dataset
      ↔ ∃ fault, dataset.halt? bank.columns.length = some (.fault fault) := by
  have stops := Checked.trainOn_stops bank dataset
  constructor
  · rintro ⟨fault, stopped, -⟩
    exact ⟨fault, (stops.eq_error_iff _).mp stopped⟩
  · rintro ⟨fault, told⟩
    rw [told] at stops
    cases stops with
    | fault fault checked_eq plain_eq =>
        refine ⟨fault, checked_eq, ?_⟩
        rw [serve, plain_eq]
        rfl

theorem accepts_iff
    : bank.Accepts dataset ↔ dataset.halt? bank.columns.length = none := by
  have stops := Checked.trainOn_stops bank dataset
  constructor
  · rintro ⟨trained, came, -⟩
    cases told : dataset.halt? bank.columns.length with
    | none => rfl
    | some halt =>
        rw [(stops.eq_error_iff halt).mpr told] at came
        cases came
  · intro told
    rw [told] at stops
    cases stops with
    | never trained checked_eq plain_eq =>
        refine ⟨trained, checked_eq, ?_⟩
        rw [serve, plain_eq]
        rfl

/-- Main statement: a bank rejects a dataset, and stays as it is, exactly where the rows are not
regular or the first optimization that has not a label for each row has no labels at all. Where it
has some, one is read that is not there, and where each optimization has a label for each row, the
bank is trained as if there were no others.
-/
theorem trainOn_mislabelled (bank : Bank) (dataset : Dataset)
    : (dataset.Mislabelled
        ↔ (∃ optimization, dataset.firstShort? = some optimization)
          ∨ ∃ optimization labels, dataset.labels.get? optimization = some labels
            ∧ dataset.rows.length < labels.length)
      ∧ (bank.Rejects dataset
        ↔ ¬dataset.Regular bank.columns.length
          ∨ ∃ optimization, dataset.firstShort? = some optimization
            ∧ dataset.labels.get? optimization = none)
      ∧ (Checked.trainOn bank dataset = .error .outOfRange
        ↔ dataset.Regular bank.columns.length
          ∧ ∃ optimization labels, dataset.firstShort? = some optimization
            ∧ dataset.labels.get? optimization = some labels)
      ∧ (bank.Accepts dataset
        ↔ dataset.Regular bank.columns.length ∧ dataset.firstShort? = none)
      ∧ Checked.trainOn bank dataset.trimmed = Checked.trainOn bank dataset := by
  refine ⟨Dataset.mislabelled_iff, rejects_iff.trans Dataset.halt?_eq_fault_iff, ?_,
    accepts_iff.trans Dataset.halt?_eq_none_iff, Checked.trainOn_trimmed bank dataset⟩
  exact ((Checked.trainOn_stops bank dataset).eq_error_iff _).trans Dataset.halt?_eq_outOfRange_iff

/-- A dataset of two rows with the same labels for all optimizations. -/
def twoRows (labels : List Bool) : Dataset where
  rows := [Inputs.columns.map fun _ => 0.0, Inputs.columns.map fun _ => 1.0]
  labels := .tabulate fun _ => labels

theorem mislabelled_twoRows {labels : List Bool} (unequal : labels.length ≠ 2)
    : (twoRows labels).Mislabelled := by
  refine ⟨.narrowCoordinates, fun others labelled => ?_⟩
  obtain rfl : labels = others := Option.some.inj labelled
  exact unequal

/-- Three labels for two rows are accepted, and one label for two rows is read out of range. -/
theorem mislabelled_not_rejected
    : ((twoRows [false, true, true]).Mislabelled
        ∧ (untrained .standard).Accepts (twoRows [false, true, true])
        ∧ ¬(untrained .standard).Rejects (twoRows [false, true, true]))
      ∧ (twoRows [false]).Mislabelled
      ∧ Checked.trainOn (untrained .standard) (twoRows [false]) = .error .outOfRange
      ∧ ¬(untrained .standard).Rejects (twoRows [false]) := by
  have surplus : (twoRows [false, true, true]).halt? (untrained .standard).columns.length = none :=
    rfl
  have short : (twoRows [false]).halt? (untrained .standard).columns.length = some .outOfRange :=
    rfl
  refine ⟨⟨mislabelled_twoRows (by decide), accepts_iff.mpr surplus, ?_⟩,
    mislabelled_twoRows (by decide), ?_, ?_⟩
  · rw [rejects_iff, surplus]
    simp
  · exact ((Checked.trainOn_stops _ _).eq_error_iff _).mpr short
  · rw [rejects_iff, short]
    simp

end Bank

end RangeTuner.Learning
