import Mathlib.Data.List.Forall2
import RangeTuner.Learning.Bank
import RangeTuner.Proofs.PerOptimization

/-! When a training fails. The holdout splits the places of the rows, so where every label column
reaches as far as the rows, every place that is read is there and every learner gets as many labels
as rows, and some. What is left are the faults of the dataset itself.
-/

namespace RangeTuner.Learning

-----------------------------------------------------------------------------------------
-- The holdout
-----------------------------------------------------------------------------------------

namespace Draw

/-- Swapping keeps the entries, also where a place is missing. -/
theorem swapIfInBounds_perm {α : Type} (items : Array α) (i j : Nat)
    : (items.swapIfInBounds i j).toList.Perm items.toList := by
  unfold Array.swapIfInBounds
  split
  · split
    · exact (Array.swap_perm _ _).toList
    · exact .refl _
  · exact .refl _

theorem shuffleFrom_perm {α : Type} (last : Nat) (items : Array α) (g : Generator)
    : ((shuffleFrom last items).run g).1.toList.Perm items.toList := by
  induction last generalizing items g with
  | zero => exact .refl _
  | succ last ih =>
      simp only [shuffleFrom, StateT.run_bind]
      exact (ih _ _).trans (swapIfInBounds_perm items _ _)

/-- A shuffled list has the entries of the list. -/
theorem shuffle_perm {α : Type} (items : List α) (g : Generator)
    : ((shuffle items).run g).1.Perm items :=
  shuffleFrom_perm (items.length - 1) items.toArray g

theorem length_shuffle_range (count : Nat) (g : Generator)
    : ((shuffle (List.range count)).run g).1.length = count :=
  (shuffle_perm _ g).length_eq.trans List.length_range

end Draw

/-- A holdout that trains on some of so many rows, and reads no other rows. -/
structure Holdout.Splits (holdout : Holdout) (rows : Nat) : Prop where
  training_ne_nil : holdout.training ≠ []
  training_lt : ∀ place ∈ holdout.training, place < rows
  heldOut_lt : ∀ place ∈ holdout.heldOut, place < rows

/-- Fewer rows are held out than there are. -/
theorem Holdout.size_le (rows : Nat) (fraction : Float)
    : size rows fraction ≤ rows - 1 :=
  Nat.min_le_right _ _

/-- A random holdout splits the rows, if there are some. -/
theorem Holdout.draw_splits {rows : Nat} (some_rows : 0 < rows) (fraction : Float)
    (seed : UInt64)
    : (draw rows fraction seed).Splits rows := by
  have shuffled := Draw.shuffle_perm (List.range rows) (.ofStream seed stream)
  have held := size_le rows fraction
  constructor
  · apply List.ne_nil_of_length_pos
    simp only [draw, List.length_drop, Draw.length_shuffle_range]
    omega
  · exact fun place member =>
      List.mem_range.mp (shuffled.mem_iff.mp (List.mem_of_mem_drop member))
  · exact fun place member =>
      List.mem_range.mp (shuffled.mem_iff.mp (List.mem_of_mem_take member))

/-- Every row is trained on or held out. -/
theorem Holdout.mem_draw {rows place : Nat} (below : place < rows) (fraction : Float)
    (seed : UInt64)
    : place ∈ (draw rows fraction seed).training ∨ place ∈ (draw rows fraction seed).heldOut := by
  have shuffled := Draw.shuffle_perm (List.range rows) (.ofStream seed stream)
  have placed := shuffled.mem_iff.mpr (List.mem_range.mpr below)
  rw [← List.take_append_drop (size rows fraction) (Prod.fst _), List.mem_append] at placed
  exact placed.symm

-----------------------------------------------------------------------------------------
-- Computations that may fail
-----------------------------------------------------------------------------------------

/-- Two computations, one after the other, succeed where both do. -/
theorem bind_eq_ok_iff {α β : Type} {first : Except Fault α} {next : α → Except Fault β} {b : β}
    : first >>= next = .ok b ↔ ∃ a, first = .ok a ∧ next a = .ok b := by
  cases first <;> simp [bind, Except.bind]

theorem map_eq_ok_iff {α β : Type} {first : Except Fault α} {f : α → β} {b : β}
    : first.map f = .ok b ↔ ∃ a, first = .ok a ∧ f a = b := by
  cases first <;> simp [Except.map]

/-- Every result of several computations is the result of one of them. -/
theorem exists_of_mapM_eq_ok {α β : Type} {f : α → Except Fault β} {xs : List α} {ys : List β}
    (came : xs.mapM f = .ok ys)
    : ∀ y ∈ ys, ∃ x, f x = .ok y := by
  induction xs generalizing ys with
  | nil => cases came; simp
  | cons x rest ih =>
      rw [List.mapM_cons] at came
      obtain ⟨y, first, came⟩ := bind_eq_ok_iff.mp came
      obtain ⟨others, rest, came⟩ := bind_eq_ok_iff.mp came
      cases came
      exact List.forall_mem_cons.mpr ⟨⟨x, first⟩, ih rest⟩

/-- Steps that all succeed make a list that succeeds, with the results of the steps. -/
theorem mapM_eq_ok {α β : Type} {f : α → Except Fault β} {related : α → β → Prop} {xs : List α}
    (steps : ∀ x ∈ xs, ∃ y, f x = .ok y ∧ related x y)
    : ∃ ys, xs.mapM f = .ok ys ∧ List.Forall₂ related xs ys := by
  induction xs with
  | nil => exact ⟨[], rfl, .nil⟩
  | cons x rest ih =>
      rw [List.forall_mem_cons] at steps
      obtain ⟨⟨y, came, first⟩, steps⟩ := steps
      obtain ⟨ys, others, results⟩ := ih steps
      refine ⟨y :: ys, ?_, .cons first results⟩
      rw [List.mapM_cons, came, others]
      rfl

/-- Each entry of one of two related lists has a partner in the other. -/
theorem exists_of_mem_right {α β : Type} {related : α → β → Prop} {xs : List α} {ys : List β}
    (paired : List.Forall₂ related xs ys)
    : ∀ y ∈ ys, ∃ x, related x y := by
  induction paired with
  | nil => simp
  | cons first others ih => exact List.forall_mem_cons.mpr ⟨⟨_, first⟩, ih⟩

-----------------------------------------------------------------------------------------
-- Learners
-----------------------------------------------------------------------------------------

/-- Places that are there are found, each of them. -/
theorem Bank.pick_eq_ok {α : Type} {items : Array α} {places : List Nat}
    (within : ∀ place ∈ places, place < items.size)
    : ∃ picked, Bank.pick items places = .ok picked ∧ places.length = picked.length := by
  obtain ⟨picked, came, found⟩ :
      ∃ picked, Bank.pick items places = .ok picked
        ∧ List.Forall₂ (fun place item => items[place]? = some item) places picked := by
    refine mapM_eq_ok fun place member => ?_
    have bound := within place member
    exact ⟨items[place], by simp [bound], by simp [bound]⟩
  exact ⟨picked, came, found.length_eq⟩

theorem Example.zip_eq_ok {α : Type} {rows : List (List α)} {labels : List Bool}
    (some_rows : rows ≠ []) (paired : rows.length = labels.length)
    : Example.zip rows labels = .ok (rows.zipWith .mk labels) := by
  simp [Example.zip, some_rows, paired]

/-- A learner learns from some rows with a label each, and stays of its kind. -/
theorem Learner.fit_eq_ok (learner : Learner) {rows : List (List Float)} {labels : List Bool}
    (some_rows : rows ≠ []) (paired : rows.length = labels.length)
    : ∃ fitted, learner.fit rows labels = .ok fitted ∧ fitted.kind = learner.kind := by
  have zipped := Example.zip_eq_ok some_rows paired
  cases learner with
  | forest f =>
      obtain ⟨fitted, came⟩ : ∃ fitted, f.fit rows labels = .ok fitted := by
        rw [Forest.fit, zipped]
        exact ⟨_, rfl⟩
      exact ⟨.forest fitted, by rw [fit, came]; rfl, rfl⟩
  | boosting b =>
      obtain ⟨fitted, came⟩ : ∃ fitted, b.fit rows labels = .ok fitted := by
        rw [Boosting.fit, zipped]
        exact ⟨_, rfl⟩
      exact ⟨.boosting fitted, by rw [fit, came]; rfl, rfl⟩
  | margin m =>
      obtain ⟨fitted, came⟩ : ∃ fitted, m.fit rows labels = .ok fitted := by
        rw [Margin.fit, zipped]
        exact ⟨_, rfl⟩
      exact ⟨.margin fitted, by rw [fit, came]; rfl, rfl⟩

theorem Learner.kind_untrained (kind : LearnerKind) (settings : TrainingSettings)
    (stream : UInt64)
    : (Learner.untrained kind settings stream).kind = kind := by
  cases kind <;> rfl

namespace Dataset

/-- Every label column that is present has a label for each row. -/
def LabelsReach (dataset : Dataset) : Prop :=
  ∀ optimization labels, dataset.labels.get? optimization = some labels
    → dataset.rows.length ≤ labels.length

/-- The fault of a dataset without labels for an optimization. -/
def unlabelled (optimization : Optimization) : Fault :=
  .invalidConfig ("dataset has no labels for " ++ optimization.id)

/-- Why no bank of so many columns can be trained on a dataset. -/
def fault? (width : Nat) (dataset : Dataset) : Option Fault :=
  if dataset.rows.isEmpty then some .emptyTrainingSet
  else
    match dataset.rows.find? fun row => row.length ≠ width with
    | some row => some (.shapeMismatch width row.length)
    | none =>
        (Optimization.all.find? fun optimization =>
          (dataset.labels.get? optimization).isNone).map unlabelled

/-- A dataset without a fault has rows, all of the width, and all labels. -/
theorem fault?_eq_none {dataset : Dataset} {width : Nat} (sound : dataset.fault? width = none)
    : dataset.rows ≠ [] ∧ dataset.rows.find? (fun row => row.length ≠ width) = none
      ∧ ∀ optimization, (dataset.labels.get? optimization).isSome := by
  unfold fault? at sound
  split at sound
  next => cases sound
  next some_rows =>
    split at sound
    next => cases sound
    next wide =>
      refine ⟨by simpa using some_rows, wide, fun optimization => ?_⟩
      have labelled := List.find?_eq_none.mp (Option.map_eq_none_iff.mp sound) optimization
        optimization.mem_all
      simpa [Option.isSome_iff_ne_none] using labelled

end Dataset

namespace Bank

variable (settings : TrainingSettings) {dataset : Dataset} {rows : Array (List Float)}
  {holdout : Holdout}

/-- A learner is trained wherever its labels are present and reach as far as the rows. -/
theorem trainOne_of_labels (all : rows.size = dataset.rows.length)
    (split : holdout.Splits rows.size) {optimization : Optimization} {labels : List Bool}
    (labelled : dataset.labels.get? optimization = some labels)
    (reach : dataset.rows.length ≤ labels.length)
    : ∃ learner accuracy,
        trainOne settings dataset rows holdout optimization = .ok (learner, accuracy)
        ∧ learner.kind = optimization.learner := by
  have enough : rows.size ≤ labels.toArray.size := by
    simpa [all] using reach
  obtain ⟨shownRows, pickedRows, rowsLength⟩ := pick_eq_ok split.training_lt
  obtain ⟨shownLabels, pickedLabels, labelsLength⟩ :=
    pick_eq_ok fun place member => Nat.lt_of_lt_of_le (split.training_lt place member) enough
  obtain ⟨askedRows, pickedAskedRows, -⟩ := pick_eq_ok split.heldOut_lt
  obtain ⟨askedLabels, pickedAskedLabels, -⟩ :=
    pick_eq_ok fun place member => Nat.lt_of_lt_of_le (split.heldOut_lt place member) enough
  have shown : shownRows ≠ [] := by
    intro none
    rw [none] at rowsLength
    exact split.training_ne_nil (List.eq_nil_of_length_eq_zero rowsLength)
  obtain ⟨learner, fitted, kind⟩ :=
    (Learner.untrained optimization.learner settings optimization.index.toUInt64).fit_eq_ok
      shown (rowsLength.symm.trans labelsLength)
  refine ⟨learner, accuracy? learner askedRows askedLabels, ?_,
    kind.trans (Learner.kind_untrained _ _ _)⟩
  simp only [trainOne, labelled, pickedRows, pickedLabels, fitted, pickedAskedRows,
    pickedAskedLabels, bind, Except.bind]
  rfl

/-- Nothing is trained for an optimization without labels. -/
theorem trainOne_of_no_labels {optimization : Optimization}
    (missing : dataset.labels.get? optimization = none)
    : trainOne settings dataset rows holdout optimization
      = .error (Dataset.unlabelled optimization) := by
  simp only [trainOne, missing]
  rfl

/-- All learners are trained if all labels are present, each for its optimization. -/
theorem trainAll_eq_ok (reach : dataset.LabelsReach) (all : rows.size = dataset.rows.length)
    (split : holdout.Splits rows.size) (optimizations : List Optimization)
    (labelled : ∀ optimization ∈ optimizations, (dataset.labels.get? optimization).isSome)
    : ∃ trained, trainAll settings dataset rows holdout optimizations = .ok trained
        ∧ trained.map Prod.fst = optimizations
        ∧ ∀ entry ∈ trained, entry.2.1.kind = entry.1.learner := by
  induction optimizations with
  | nil => exact ⟨[], rfl, rfl, by simp⟩
  | cons optimization rest ih =>
      rw [List.forall_mem_cons] at labelled
      obtain ⟨labels, present⟩ := Option.isSome_iff_exists.mp labelled.1
      obtain ⟨learner, accuracy, one, kind⟩ :=
        trainOne_of_labels settings all split present (reach optimization labels present)
      obtain ⟨trained, others, named, kinds⟩ := ih labelled.2
      refine ⟨(optimization, learner, accuracy) :: trained, ?_, by simp [named], ?_⟩
      · rw [trainAll, one, others]
        rfl
      · exact List.forall_mem_cons.mpr ⟨kind, kinds⟩

/-- The first optimization without labels stops the training of them all. -/
theorem trainAll_eq_error (reach : dataset.LabelsReach) (all : rows.size = dataset.rows.length)
    (split : holdout.Splits rows.size) {optimizations : List Optimization}
    {optimization : Optimization}
    (missing : (optimizations.find? fun optimization =>
      (dataset.labels.get? optimization).isNone) = some optimization)
    : trainAll settings dataset rows holdout optimizations
      = .error (Dataset.unlabelled optimization) := by
  induction optimizations with
  | nil => cases missing
  | cons first rest ih =>
      cases labelled : dataset.labels.get? first with
      | none =>
          obtain rfl : first = optimization := by simpa [labelled] using missing
          rw [trainAll, trainOne_of_no_labels settings labelled]
          rfl
      | some labels =>
          obtain ⟨learner, accuracy, one, -⟩ :=
            trainOne_of_labels settings all split labelled (reach first labels labelled)
          rw [trainAll, one]
          simp only [List.find?_cons, labelled, Option.isNone_some] at missing
          rw [ih missing]
          rfl

end Bank

-----------------------------------------------------------------------------------------
-- The standardizer
-----------------------------------------------------------------------------------------

theorem length_accumulate {α β : Type} (f : α → β → α) (xs : List α) (ys : List β)
    : (accumulate f xs ys).length = xs.length := by
  fun_induction accumulate f xs ys with
  | case1 a as b bs ih => simp [ih]
  | case2 as bs => rfl

/-- Adding rows up keeps the columns. -/
theorem length_foldl_accumulate {α β : Type} (f : α → β → α) (rows : List (List β))
    (start : List α)
    : (rows.foldl (accumulate f) start).length = start.length := by
  induction rows generalizing start with
  | nil => rfl
  | cons row rest ih => exact (ih _).trans (length_accumulate f start row)

theorem Standardizer.width_fit (rows : List (List Float))
    : (fit rows).width = (rows.headD []).length := by
  simp [fit, width, length_foldl_accumulate]

end RangeTuner.Learning

namespace RangeTuner.Learning.Bank

-----------------------------------------------------------------------------------------
-- A whole bank
-----------------------------------------------------------------------------------------

/-- A bank with everything that a training of it installs, one fitting the other. -/
structure FullyTrained (bank : Bank) : Prop where
  standardizer : ∃ standardizer, bank.standardizer = some standardizer
    ∧ standardizer.width = bank.columns.length
  learners : ∀ optimization, ∃ learner, bank.learners.get? optimization = some learner
    ∧ learner.kind = optimization.learner
  summary : ∃ summary, bank.summary = some summary ∧ summary.columns = bank.columns.length
    ∧ summary.seed = bank.settings.seed

variable {bank : Bank} {dataset : Dataset}

/-- The standardized rows of a dataset, as many as there are rows. -/
theorem size_standardized (dataset : Dataset) (standardizer : Standardizer)
    : (dataset.rows.map standardizer.transform).toArray.size = dataset.rows.length := by
  simp

/-- A dataset without a fault trains the whole bank, and changes nothing else about it. -/
theorem trainOn_of_no_fault (reach : dataset.LabelsReach)
    (sound : dataset.fault? bank.columns.length = none)
    : ∃ trained, bank.trainOn dataset = .ok trained
      ∧ trained.settings = bank.settings
      ∧ trained.columns = bank.columns
      ∧ trained.FullyTrained := by
  obtain ⟨some_rows, wide, labelled⟩ := Dataset.fault?_eq_none sound
  have size := size_standardized dataset (.fit dataset.rows)
  have split := Holdout.draw_splits (size ▸ List.length_pos_iff.mpr some_rows)
    bank.settings.holdoutFraction bank.settings.seed
  obtain ⟨trained, all, named, kinds⟩ :=
    trainAll_eq_ok bank.settings reach size split Optimization.all
      fun optimization _ => labelled optimization
  have width : (Standardizer.fit dataset.rows).width = bank.columns.length := by
    rw [Standardizer.width_fit]
    obtain ⟨row, rest, rows⟩ := List.exists_cons_of_ne_nil some_rows
    simp only [rows, List.find?_eq_none, List.forall_mem_cons] at wide
    simpa [rows] using wide.1
  rw [trainOn, if_neg (by simpa using some_rows)]
  simp only [wide, all, bind, Except.bind]
  refine ⟨_, rfl, rfl, rfl, ⟨_, rfl, width⟩, fun optimization => ?_, ⟨_, rfl, rfl, rfl⟩⟩
  have installed
      : (trained.map fun entry => (entry.1, entry.2.1)).map Prod.fst = Optimization.all := by
    rw [List.map_map]
    exact named
  obtain ⟨learner, present, member⟩ :=
    PerOptimization.exists_get?_ofList installed optimization
  obtain ⟨entry, within, same⟩ := List.mem_map.mp member
  cases same
  exact ⟨entry.2.1, present, kinds entry within⟩

/-- A dataset with a fault does not train a bank. -/
theorem trainOn_of_fault {fault : Fault} (reach : dataset.LabelsReach)
    (unsound : dataset.fault? bank.columns.length = some fault)
    : bank.trainOn dataset = .error fault := by
  unfold Dataset.fault? at unsound
  unfold trainOn
  split at unsound
  next empty =>
    rw [if_pos empty]
    exact congrArg Except.error (Option.some.inj unsound)
  next some_rows =>
    rw [if_neg some_rows]
    cases wide : dataset.rows.find? fun row => row.length ≠ bank.columns.length with
    | some row =>
        simp only [wide] at unsound ⊢
        exact congrArg Except.error (Option.some.inj unsound)
    | none =>
        simp only [wide] at unsound ⊢
        obtain ⟨optimization, missing, rfl⟩ := Option.map_eq_some_iff.mp unsound
        have size := size_standardized dataset (.fit dataset.rows)
        have positive : 0 < dataset.rows.length := by
          simpa [List.length_pos_iff] using some_rows
        rw [trainAll_eq_error bank.settings reach size
          (Holdout.draw_splits (size ▸ positive) _ _) missing]
        rfl

/-- A training on a dataset fails for the fault of the dataset, and for no other reason. -/
theorem trainOn_eq_error_iff {fault : Fault} (reach : dataset.LabelsReach)
    : bank.trainOn dataset = .error fault
      ↔ dataset.fault? bank.columns.length = some fault := by
  constructor
  · intro failed
    cases found : dataset.fault? bank.columns.length with
    | none =>
        obtain ⟨trained, came, -⟩ := trainOn_of_no_fault reach found
        rw [came] at failed
        cases failed
    | some other =>
        rw [trainOn_of_fault reach found] at failed
        exact congrArg some (Except.error.inj failed)
  · exact trainOn_of_fault reach

/-- What a training makes of a bank depends on its settings and columns alone. -/
theorem trainOn_congr {other : Bank} (settings : bank.settings = other.settings)
    (columns : bank.columns = other.columns) (dataset : Dataset)
    : bank.trainOn dataset = other.trainOn dataset := by
  cases bank
  cases other
  obtain rfl := settings
  obtain rfl := columns
  rfl

end RangeTuner.Learning.Bank
