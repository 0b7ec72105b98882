import RangeTuner.Proofs.Learning.Synthesis

/-! A bank in use, over runs of any length: trainings on rows of its own or on given ones, and
predictions. A training replaces the whole bank or nothing of it, so the bank is always that of
the last training that succeeded, and it predicts all optimizations or none. Main statement: what
every request of every run does.
-/

namespace RangeTuner.Learning

-----------------------------------------------------------------------------------------
-- Predictions
-----------------------------------------------------------------------------------------

namespace Bank

variable {bank : Bank}

/-- A fully trained bank can predict. -/
theorem FullyTrained.isTrained (whole : bank.FullyTrained)
    : bank.isTrained = true := by
  obtain ⟨standardizer, fitted, -⟩ := whole.standardizer
  have learned : ∀ optimization, (bank.learners.get? optimization).isSome := by
    intro optimization
    obtain ⟨learner, present, -⟩ := whole.learners optimization
    rw [present]
    rfl
  simp [Bank.isTrained, fitted, PerOptimization.isComplete, learned]

/-- A fully trained bank has a row for all inputs. -/
theorem FullyTrained.row_eq_ok (whole : bank.FullyTrained) (inputs : Inputs)
    : ∃ row, bank.row inputs = .ok row := by
  obtain ⟨standardizer, fitted, width⟩ := whole.standardizer
  have fits : ¬ standardizer.width ≠ (inputs.project bank.columns).length := by
    simpa [Inputs.project] using width
  exact ⟨_, by rw [row, fitted]; exact if_neg fits⟩

/-- What a learner tells about a row is told of its optimization. -/
theorem predictRow_eq_ok {optimization : Optimization} {learner : Learner}
    (present : bank.learners.get? optimization = some learner) (inputs : Inputs)
    (row : List Float)
    : ∃ prediction, bank.predictRow inputs row optimization = .ok prediction
      ∧ prediction.optimization = optimization :=
  ⟨_, by rw [predictRow, present], rfl⟩

/-- A bank with learners for all optimizations predicts every one of them once, in declaration
order, from its row.
-/
theorem predict_of_row
    (learned : ∀ optimization, ∃ learner, bank.learners.get? optimization = some learner)
    {inputs : Inputs} {row : List Float} (came : bank.row inputs = .ok row)
    : ∃ predictions, bank.predict inputs = .ok predictions
      ∧ predictions.toList.map Prod.fst = Optimization.all
      ∧ ∀ optimization, ∃ prediction, predictions.get? optimization = some prediction
        ∧ prediction.optimization = optimization
        ∧ bank.predictRow inputs row optimization = .ok prediction := by
  obtain ⟨made, all, each⟩
      : ∃ made, Optimization.all.mapM (bank.predictRow inputs row) = .ok made
        ∧ List.Forall₂
          (fun optimization prediction => prediction.optimization = optimization
            ∧ bank.predictRow inputs row prediction.optimization = .ok prediction)
          Optimization.all made := by
    refine mapM_eq_ok fun optimization _ => ?_
    obtain ⟨learner, present⟩ := learned optimization
    obtain ⟨prediction, predicted, rfl⟩ := predictRow_eq_ok present inputs row
    exact ⟨prediction, predicted, rfl, predicted⟩
  have named : (made.map fun p => (p.optimization, p)).map Prod.fst = Optimization.all := by
    have same := List.forall₂_map_right_iff.mpr (each.imp fun _ _ one => one.1.symm)
    rw [List.forall₂_eq_eq_eq] at same
    rw [List.map_map]
    exact same.symm
  have found := PerOptimization.exists_get?_ofList named
  refine ⟨.ofList (made.map fun p => (p.optimization, p)), ?_, ?_, fun optimization => ?_⟩
  · rw [predict, came]
    simp only [bind, Except.bind, all]
    rfl
  · exact PerOptimization.map_fst_toList_of_complete fun optimization =>
      let ⟨prediction, present, _⟩ := found optimization
      ⟨prediction, present⟩
  · obtain ⟨prediction, present, member⟩ := found optimization
    obtain ⟨_, within, same⟩ := List.mem_map.mp member
    cases same
    obtain ⟨-, -, predicted⟩ := exists_of_mem_right each prediction within
    exact ⟨prediction, present, rfl, predicted⟩

/-- A fully trained bank predicts every optimization once, in declaration order, as it predicts
it alone.
-/
theorem FullyTrained.predict_eq_ok (whole : bank.FullyTrained) (inputs : Inputs)
    : ∃ predictions, bank.predict inputs = .ok predictions
      ∧ predictions.toList.map Prod.fst = Optimization.all
      ∧ ∀ optimization, ∃ prediction, predictions.get? optimization = some prediction
        ∧ prediction.optimization = optimization
        ∧ bank.predictOne inputs optimization = .ok prediction := by
  obtain ⟨row, came⟩ := whole.row_eq_ok inputs
  have learned : ∀ optimization, ∃ learner, bank.learners.get? optimization = some learner :=
    fun optimization =>
      let ⟨learner, present, _⟩ := whole.learners optimization
      ⟨learner, present⟩
  obtain ⟨predictions, predicted, all, each⟩ := predict_of_row learned came
  refine ⟨predictions, predicted, all, fun optimization => ?_⟩
  obtain ⟨prediction, present, named, alone⟩ := each optimization
  refine ⟨prediction, present, named, ?_⟩
  rw [predictOne, came]
  exact alone

end Bank

-----------------------------------------------------------------------------------------
-- Requests
-----------------------------------------------------------------------------------------

/-- What a bank can be asked for. -/
inductive Request where
  | train
  | trainOn (dataset : Dataset)
  | predict (inputs : Inputs)
  | predictOne (inputs : Inputs) (optimization : Optimization)

/-- What a bank answers. -/
inductive Reply where
  | summary (summary : Option TrainingSummary)
  | predictions (predictions : PerOptimization Prediction)
  | prediction (prediction : Prediction)

namespace Request

/-- The labels of a dataset that is given reach as far as its rows. -/
def LabelsReach : Request → Prop
  | trainOn dataset => dataset.LabelsReach
  | train | predict _ | predictOne _ _ => True

/-- Why a request fails, of a bank with these settings that can predict or cannot. -/
def fault? (settings : TrainingSettings) (canPredict : Bool) : Request → Option Fault
  | train => settings.problem?.map .invalidConfig
  | trainOn dataset => dataset.fault? Inputs.columns.length
  | predict _ | predictOne _ _ => if canPredict then none else some .notTrained

/-- The bank that a request makes of a fresh one, if it is for a training and succeeds. -/
def trainsAfresh? (settings : TrainingSettings) : Request → Option Bank
  | train => (Bank.untrained settings).train.toOption
  | trainOn dataset => ((Bank.untrained settings).trainOn dataset).toOption
  | predict _ | predictOne _ _ => none

end Request

namespace Bank

/-- The bank and the answer after a training: what was trained, or the bank as it was. -/
def settle (bank : Bank) : Except Fault Bank → Bank × Except Fault Reply
  | .ok trained => (trained, .ok (.summary trained.summary))
  | .error fault => (bank, .error fault)

/-- The bank and its answer after a request. -/
def serve (bank : Bank) : Request → Bank × Except Fault Reply
  | .train => bank.settle bank.train
  | .trainOn dataset => bank.settle (bank.trainOn dataset)
  | .predict inputs => (bank, (bank.predict inputs).map .predictions)
  | .predictOne inputs optimization =>
      (bank, (bank.predictOne inputs optimization).map .prediction)

/-- The bank after a run of requests. -/
def after (bank : Bank) (requests : List Request) : Bank :=
  requests.foldl (fun bank request => (bank.serve request).1) bank

/-- Untrained or fully trained under these settings, and nothing between. -/
structure Whole (settings : TrainingSettings) (bank : Bank) : Prop where
  settings_eq : bank.settings = settings
  columns_eq : bank.columns = Inputs.columns
  stage : bank = untrained settings ∨ bank.FullyTrained

variable {settings : TrainingSettings} {bank : Bank}

theorem Whole.fullyTrained (whole : bank.Whole settings) (trained : bank.isTrained = true)
    : bank.FullyTrained := by
  rcases whole.stage with rfl | fully
  · cases trained
  · exact fully

/-- An untrained bank predicts nothing. -/
theorem Whole.predict_of_not_trained (whole : bank.Whole settings)
    (fresh : bank.isTrained = false) (inputs : Inputs)
    : bank.predict inputs = .error .notTrained
      ∧ ∀ optimization, bank.predictOne inputs optimization = .error .notTrained := by
  rcases whole.stage with rfl | fully
  · exact ⟨rfl, fun _ => rfl⟩
  · rw [fully.isTrained] at fresh
    cases fresh

-----------------------------------------------------------------------------------------
-- Steps
-----------------------------------------------------------------------------------------

/-- A training under these settings has the given fault, or it has none and makes a whole bank. -/
def Settles (settings : TrainingSettings) (training : Except Fault Bank) : Option Fault → Prop
  | some fault => training = .error fault
  | none => ∃ trained, training = .ok trained ∧ trained.Whole settings

theorem Whole.trainOn_settles (whole : bank.Whole settings) {dataset : Dataset}
    (reach : dataset.LabelsReach)
    : Settles settings (bank.trainOn dataset) (dataset.fault? Inputs.columns.length) := by
  rw [← whole.columns_eq]
  cases found : dataset.fault? bank.columns.length with
  | some fault => exact trainOn_of_fault reach found
  | none =>
      obtain ⟨trained, came, named, columns, fully⟩ := trainOn_of_no_fault reach found
      exact ⟨trained, came, named.trans whole.settings_eq, columns.trans whole.columns_eq,
        .inr fully⟩

theorem Whole.train_settles (whole : bank.Whole settings)
    : Settles settings bank.train (settings.problem?.map .invalidConfig) := by
  cases found : settings.problem? with
  | some problem => exact train_of_problem (whole.settings_eq ▸ found)
  | none =>
      have own : bank.settings.problem? = none := whole.settings_eq ▸ found
      obtain ⟨dataset, same, reach, sound⟩ := train_of_sound own
      have settled := whole.trainOn_settles reach
      rwa [sound, ← same] at settled

/-- What a request comes to. -/
inductive Outcome (settings : TrainingSettings) (bank : Bank) (request : Request) : Prop where
  /-- It fails for its fault and leaves the bank. -/
  | failed (fault : Fault)
    (found : request.fault? settings bank.isTrained = some fault)
    (served : bank.serve request = (bank, .error fault))
    (idle : request.trainsAfresh? settings = none)
  /-- It has no fault, and the bank is as if it had been trained from the start. -/
  | trained (trained : Bank)
    (sound : request.fault? settings bank.isTrained = none)
    (served : bank.serve request = (trained, .ok (.summary trained.summary)))
    (afresh : request.trainsAfresh? settings = some trained)
    (whole : trained.Whole settings)
  /-- It has no fault, and an answer that leaves the bank. -/
  | answered (reply : Reply)
    (sound : request.fault? settings bank.isTrained = none)
    (served : bank.serve request = (bank, .ok reply))
    (idle : request.trainsAfresh? settings = none)

/-- The outcome of a training that is served. -/
theorem Outcome.of_settles {request : Request} {training : Except Fault Bank}
    (served : bank.serve request = bank.settle training)
    (afresh : request.trainsAfresh? settings = training.toOption)
    (settled : Settles settings training (request.fault? settings bank.isTrained))
    : Outcome settings bank request := by
  cases found : request.fault? settings bank.isTrained with
  | some fault =>
      rw [found] at settled
      obtain rfl : training = .error fault := settled
      exact .failed fault found served afresh
  | none =>
      rw [found] at settled
      obtain ⟨trained, rfl, whole⟩ := settled
      exact .trained trained found served afresh whole

/-- Every request has an outcome. -/
theorem Whole.outcome (whole : bank.Whole settings) {request : Request}
    (reach : request.LabelsReach)
    : Outcome settings bank request := by
  cases request with
  | train =>
      have same : bank.train = (untrained settings).train :=
        train_congr whole.settings_eq whole.columns_eq
      exact .of_settles rfl (congrArg Except.toOption same.symm) whole.train_settles
  | trainOn dataset =>
      have same : bank.trainOn dataset = (untrained settings).trainOn dataset :=
        trainOn_congr whole.settings_eq whole.columns_eq dataset
      exact .of_settles rfl (congrArg Except.toOption same.symm) (whole.trainOn_settles reach)
  | predict inputs =>
      cases stage : bank.isTrained with
      | false =>
          refine .failed .notTrained (by simp [Request.fault?, stage]) ?_ rfl
          rw [serve, (whole.predict_of_not_trained stage inputs).1]
          rfl
      | true =>
          obtain ⟨predictions, came, -⟩ := (whole.fullyTrained stage).predict_eq_ok inputs
          refine .answered (.predictions predictions) (by simp [Request.fault?, stage]) ?_ rfl
          rw [serve, came]
          rfl
  | predictOne inputs optimization =>
      cases stage : bank.isTrained with
      | false =>
          refine .failed .notTrained (by simp [Request.fault?, stage]) ?_ rfl
          rw [serve, (whole.predict_of_not_trained stage inputs).2]
          rfl
      | true =>
          obtain ⟨predictions, -, -, each⟩ := (whole.fullyTrained stage).predict_eq_ok inputs
          obtain ⟨prediction, -, -, came⟩ := each optimization
          refine .answered (.prediction prediction) (by simp [Request.fault?, stage]) ?_ rfl
          rw [serve, came]
          rfl

theorem Whole.serve (whole : bank.Whole settings) {request : Request}
    (reach : request.LabelsReach)
    : (bank.serve request).1.Whole settings := by
  cases whole.outcome reach with
  | failed fault found served idle => rwa [served]
  | trained trained sound served afresh trainedWhole => rwa [served]
  | answered reply sound served idle => rwa [served]

end Bank

end RangeTuner.Learning
