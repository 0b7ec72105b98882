import RangeTuner.Exchange.Bank
import RangeTuner.Proofs.Exchange.Learner
import RangeTuner.Proofs.Text.Encoded

/-! Saved banks. Main statement: a trained bank is loaded from the text it is saved as, however
its trees are shaped, and a bank that is not trained is neither saved nor loaded.
-/

namespace RangeTuner.Learning

open RangeTuner.Json RangeTuner.Text

/-- Whole numbers are words and all accuracies are exact. -/
structure TrainingSummary.Held (summary : TrainingSummary) : Prop where
  samples : IsWord summary.samples
  columns : IsWord summary.columns
  holdoutAccuracy : ∀ optimization x,
    summary.holdoutAccuracy.get? optimization = some (some x) → Exact x

theorem TrainingSummary.Held.keeps {summary : TrainingSummary} (held : summary.Held)
    : Keeps toJson ofJson? summary := by
  have samples := keeps_ofNat held.samples
  have columns := keeps_ofNat held.columns
  have seed := keeps_ofWord summary.seed
  have accuracy : Keeps (PerOptimization.toJson (ofOption ofFloat))
      (PerOptimization.ofJson? (option? float?)) summary.holdoutAccuracy := by
    apply PerOptimization.keeps
    rintro optimization accuracy found
    apply Keeps.option
    rintro x rfl
    have exact := held.holdoutAccuracy optimization x found
    exact ⟨exact.keeps, exact.ne_null⟩
  constructor
  · exact proper_object_iff.mpr (by
      simp [samples.proper, columns.proper, seed.proper, accuracy.proper])
  · rw [toJson, ofJson?, record?_object]
    · simp only [Option.bind_eq_bind, Option.bind_some]
      rw [samples.require "samples" rfl, columns.require "columns" rfl, seed.require "seed" rfl,
        accuracy.require "holdout_accuracy" rfl]
      rfl
    · rfl
    · decide

namespace Bank

/-- Everything that a bank consists of is held, and no tree is too deep to be read. -/
structure Held (bank : Bank) : Prop where
  settings : bank.settings.Held
  standardizer : ∀ s, bank.standardizer = some s → s.Held
  learners : ∀ optimization learner, bank.learners.get? optimization = some learner
    → learner.Held
  shallow : ∀ optimization learner, bank.learners.get? optimization = some learner
    → ∀ tree ∈ learner.trees, tree.depth + 3 ≤ deepest
  summary : ∀ summary, bank.summary = some summary → summary.Held

/-- A bank is read back from its form, trained or not. -/
theorem Held.keeps {bank : Bank} (held : bank.Held)
    : Keeps toJson ofJson? bank := by
  have settings := held.settings.keeps
  have columns := Keeps.list fun column (_ : column ∈ bank.columns) => keeps_string column
  have standardizer := Keeps.option fun s present =>
    ⟨(held.standardizer s present).keeps, (nofun : s.toJson ≠ .null)⟩
  have learners : Keeps (PerOptimization.toJson Learner.toJson)
      (PerOptimization.ofJson? learner?) bank.learners := by
    apply PerOptimization.keeps
    intro optimization learner found
    have keeps := (held.learners optimization learner found).keeps
    have shallow : learner.toJson.depth ≤ deepest :=
      Learner.depth_toJson_le (by decide) (held.shallow optimization learner found)
    exact ⟨keeps.proper, by rw [learner?, if_pos shallow, keeps.read]⟩
  have summary := Keeps.option fun summary present =>
    ⟨(held.summary summary present).keeps, (nofun : summary.toJson ≠ .null)⟩
  constructor
  · exact proper_object_iff.mpr (by
      simp [settings.proper, columns.proper, standardizer.proper, learners.proper,
        summary.proper])
  · rw [toJson, ofJson?, record?_object]
    · simp only [Option.bind_eq_bind, Option.bind_some]
      rw [settings.require "config" rfl, columns.require "columns" rfl,
        standardizer.optional "scaler" rfl, learners.require "learners" rfl,
        summary.optional "summary" rfl]
      rfl
    · rfl
    · decide

/-- The text of a bank is read as the bank, from its characters and from its bytes. -/
theorem Held.read {bank : Bank} (held : bank.Held)
    : (read? (write bank.toJson).toList).bind ofJson? = some bank
      ∧ (readDecoded? (decoded (write bank.toJson).toUTF8)).bind ofJson? = some bank := by
  have text : (read? (write bank.toJson).toList).bind ofJson? = some bank := by
    rw [write, String.toList_ofList, read?_compact held.keeps.proper, Option.bind_some,
      held.keeps.read]
  refine ⟨text, ?_⟩
  rw [decoded_toUTF8]
  exact text

theorem loadRead_of_isTrained {saved : Option Json} {bank : Bank}
    (read : saved.bind ofJson? = some bank) (trained : bank.isTrained = true)
    (columns : bank.columns = Inputs.columns)
    : loadRead saved = .ok bank := by
  rw [loadRead, read]
  simp only [trained, if_true, columnsProblem?, columns]
  rfl

theorem loadRead_of_not_isTrained {saved : Option Json} {bank : Bank}
    (read : saved.bind ofJson? = some bank) (untrained : bank.isTrained = false)
    : loadRead saved = .error .notTrained := by
  rw [loadRead, read]
  simp only [untrained, Bool.false_eq_true, if_false]

/-- Saving and loading is the identity. A trained bank on the input columns is loaded from its
text or its bytes as it was, so it saves the same text again and predicts the same; a bank that is
not trained is not saved, and every text or bytes that write one are refused.
-/
theorem load_save (bank : Bank)
    : (bank.Held → bank.isTrained = true → bank.columns = Inputs.columns
        → ∃ text, bank.save = .ok text
          ∧ load text.toList = .ok bank
          ∧ loadBytes text.toUTF8 = .ok bank
          ∧ (loadBytes text.toUTF8 >>= save) = .ok text
          ∧ ∀ inputs, (loadBytes text.toUTF8 >>= (·.predict inputs)) = bank.predict inputs)
      ∧ (bank.isTrained = false
        → bank.save = .error .notTrained
          ∧ (∀ text, (read? text).bind ofJson? = some bank → load text = .error .notTrained)
          ∧ (∀ bytes, (readDecoded? (decoded bytes)).bind ofJson? = some bank
            → loadBytes bytes = .error .notTrained)
          ∧ (bank.Held
            → load (write bank.toJson).toList = .error .notTrained
              ∧ loadBytes (write bank.toJson).toUTF8 = .error .notTrained)) := by
  constructor
  · intro held trained columns
    have saved : bank.save = .ok (write bank.toJson) := by rw [save, if_pos trained]
    have loaded : load (write bank.toJson).toList = .ok bank :=
      loadRead_of_isTrained held.read.1 trained columns
    have loadedBytes : loadBytes (write bank.toJson).toUTF8 = .ok bank :=
      loadRead_of_isTrained held.read.2 trained columns
    refine ⟨write bank.toJson, saved, loaded, loadedBytes, ?_, ?_⟩
    · rw [loadedBytes]
      exact saved
    · intro inputs
      rw [loadedBytes]
      rfl
  · intro untrained
    have refusedSave : bank.save = .error .notTrained := by simp [save, untrained]
    refine ⟨refusedSave, ?_, ?_, ?_⟩
    · exact fun text read => loadRead_of_not_isTrained read untrained
    · exact fun bytes read => loadRead_of_not_isTrained read untrained
    · exact fun held => ⟨loadRead_of_not_isTrained held.read.1 untrained,
        loadRead_of_not_isTrained held.read.2 untrained⟩

/-- A small learner of each kind. -/
def stump : LearnerKind → Learner
  | .forest => .forest ⟨.standard, 42, [.split 3 0.5 (.leaf 0.25) (.leaf 1.0), .leaf 0.0]⟩
  | .boosting => .boosting ⟨.standard, -0.1, [.split 0 1e-7 (.leaf 0.25) (.leaf (-1.5))]⟩
  | .margin => .margin ⟨.standard, 42, [0.1, -2.0], 1e300⟩

theorem stump_held
    : (kind : LearnerKind) → (stump kind).Held
  | .forest => Forest.Held.mk TrainingSettings.standard_held.forest (by decide +kernel)
  | .boosting =>
      Boosting.Held.mk TrainingSettings.standard_held.boosting (by decide +kernel)
        (by decide +kernel)
  | .margin =>
      Margin.Held.mk TrainingSettings.standard_held.margin (by decide +kernel) (by decide +kernel)

/-- A bank of small learners. -/
def stumps : Bank where
  settings := .standard
  columns := Inputs.columns
  standardizer := some ⟨Inputs.columns.map fun _ => -0.0, Inputs.columns.map fun _ => 1.0⟩
  learners := .tabulate fun optimization => stump optimization.learner
  summary := some ⟨100, 12, 42, .tabulate fun _ => some 0.95⟩

theorem stumps_held
    : stumps.Held where
  settings := TrainingSettings.standard_held
  standardizer := by
    rintro s ⟨⟩
    exact ⟨by decide +kernel, by decide +kernel⟩
  learners := by
    rintro optimization learner ⟨⟩
    exact stump_held optimization.learner
  shallow := by
    rintro optimization learner ⟨⟩
    cases optimization <;> decide
  summary := by
    rintro summary ⟨⟩
    refine ⟨by decide, by decide, ?_⟩
    rintro optimization x ⟨⟩
    decide +kernel

/-- A bank that was never trained has only settings, so it is held when they are. -/
theorem untrained_held {settings : TrainingSettings} (held : settings.Held)
    : (untrained settings).Held where
  settings := held
  standardizer := nofun
  learners := nofun
  shallow := nofun
  summary := nofun

theorem load_save_stumps
    : (∃ text, stumps.save = .ok text ∧ loadBytes text.toUTF8 = .ok stumps)
      ∧ (untrained .standard).save = .error .notTrained
      ∧ load (write (untrained .standard).toJson).toList = .error .notTrained := by
  obtain ⟨text, saved, -, loaded, -⟩ := (load_save stumps).1 stumps_held (by decide +kernel) rfl
  obtain ⟨notSaved, -, -, notLoaded⟩ := (load_save (untrained .standard)).2 rfl
  exact ⟨⟨text, saved, loaded⟩, notSaved,
    (notLoaded (untrained_held TrainingSettings.standard_held)).1⟩

end Bank

end RangeTuner.Learning
