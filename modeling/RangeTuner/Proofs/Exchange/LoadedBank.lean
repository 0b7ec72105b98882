import RangeTuner.Proofs.Exchange.SavedBank
import RangeTuner.Proofs.Learning.BankRuns

/-! Banks that are loaded. What is loaded is trained on the columns of the inputs, but its
standardizer may have any number of shifts and divisors. A row is standardized as far as there are
both, and only the shifts are counted before. Main statement: for which standardizers a bank that
is loaded predicts from all inputs, and what banks with others do.
-/

namespace RangeTuner.Learning

open RangeTuner.Json

-----------------------------------------------------------------------------------------
-- Standardized rows
-----------------------------------------------------------------------------------------

namespace Standardizer

variable {s : Standardizer} {raw row : List Float}

/-- A row has every figure of another one, shifted and divided by what there is for its column. -/
structure Scales (s : Standardizer) (raw row : List Float) : Prop where
  length : row.length = raw.length
  scaled : ∀ (place : Nat) (x : Float), raw[place]? = some x
    → ∃ m d : Float, s.mean[place]? = some m ∧ s.scale[place]? = some d
      ∧ row[place]? = some ((x - m) / d)

theorem length_transform (s : Standardizer) (raw : List Float)
    : (s.transform raw).length = min raw.length (min s.mean.length s.scale.length) := by
  simp [transform]

/-- Where there are a shift and a divisor for each column, all of a row is standardized. -/
theorem scales_transform (mean : raw.length ≤ s.mean.length) (scale : raw.length ≤ s.scale.length)
    : s.Scales raw (s.transform raw) where
  length := by
    rw [length_transform]
    omega
  scaled := by
    intro place x here
    have below : place < raw.length := (List.getElem?_eq_some_iff.mp here).1
    have shift : s.mean[place]? = some s.mean[place] := List.getElem?_eq_getElem _
    have divisor : s.scale[place]? = some s.scale[place] := List.getElem?_eq_getElem _
    have figures : (raw.zip (s.mean.zip s.scale))[place]?
        = some (x, s.mean[place], s.scale[place]) :=
      List.getElem?_zip_eq_some.mpr ⟨here, List.getElem?_zip_eq_some.mpr ⟨shift, divisor⟩⟩
    refine ⟨s.mean[place], s.scale[place], shift, divisor, ?_⟩
    rw [transform, List.getElem?_map, figures]
    rfl

/-- No row of which all is standardized has more columns than there are shifts and divisors. -/
theorem Scales.length_le (scales : s.Scales raw row)
    : raw.length ≤ s.mean.length ∧ raw.length ≤ s.scale.length := by
  have each (place : Nat) (below : place < raw.length)
      : place < s.mean.length ∧ place < s.scale.length := by
    obtain ⟨m, d, shift, divisor, -⟩ :=
      scales.scaled place raw[place] (List.getElem?_eq_getElem below)
    exact ⟨(List.getElem?_eq_some_iff.mp shift).1, (List.getElem?_eq_some_iff.mp divisor).1⟩
  exact ⟨Nat.le_of_not_lt fun more => Nat.lt_irrefl _ (each _ more).1,
    Nat.le_of_not_lt fun more => Nat.lt_irrefl _ (each _ more).2⟩

end Standardizer

namespace Bank

variable {bank : Bank} {s : Standardizer} {inputs : Inputs}

-----------------------------------------------------------------------------------------
-- Predictions from a row
-----------------------------------------------------------------------------------------

/-- The bank predicts every optimization once, in declaration order, and each as the learner of the
optimization decides about the row.
-/
def PredictsFrom (bank : Bank) (inputs : Inputs) (row : List Float) : Prop :=
  ∃ predictions, bank.predict inputs = .ok predictions
    ∧ predictions.toList.map Prod.fst = Optimization.all
    ∧ ∀ optimization, ∃ learner prediction,
      bank.learners.get? optimization = some learner
        ∧ predictions.get? optimization = some prediction
        ∧ prediction.optimization = optimization
        ∧ prediction.apply = (learner.decide row).apply
        ∧ prediction.confidence = (learner.decide row).confidence

/-- The bank predicts every optimization from a row of all inputs, standardized. -/
def UsableOn (bank : Bank) (inputs : Inputs) : Prop :=
  ∃ s row, bank.standardizer = some s ∧ s.Scales inputs.row row ∧ bank.PredictsFrom inputs row

/-- A bank that can predict has a standardizer and learners for all optimizations. -/
theorem exists_of_isTrained (trained : bank.isTrained = true)
    : (∃ s, bank.standardizer = some s)
      ∧ ∀ optimization, ∃ learner, bank.learners.get? optimization = some learner := by
  obtain ⟨fitted, complete⟩ := Bool.and_eq_true_iff.mp trained
  refine ⟨Option.isSome_iff_exists.mp fitted, fun optimization => ?_⟩
  exact Option.isSome_iff_exists.mp (List.all_eq_true.mp complete _ optimization.mem_all)

theorem predictsFrom_of_row
    (learned : ∀ optimization, ∃ learner, bank.learners.get? optimization = some learner)
    {row : List Float} (came : bank.row inputs = .ok row)
    : bank.PredictsFrom inputs row := by
  obtain ⟨predictions, predicted, all, each⟩ := predict_of_row learned came
  refine ⟨predictions, predicted, all, fun optimization => ?_⟩
  obtain ⟨learner, present⟩ := learned optimization
  obtain ⟨prediction, found, named, decided⟩ := each optimization
  rw [predictRow, present] at decided
  obtain rfl := Except.ok.inj decided
  exact ⟨learner, _, present, found, rfl, rfl, rfl⟩

/-- A bank on the columns of the inputs has a row for them if there is a shift for each column. -/
theorem row_eq_ok (fitted : bank.standardizer = some s) (columns : bank.columns = Inputs.columns)
    (wide : s.mean.length = Inputs.columns.length)
    : bank.row inputs = .ok (s.transform inputs.row) := by
  have same : ¬s.width ≠ (inputs.project bank.columns).length := by
    simpa [Standardizer.width, Inputs.project, columns] using wide
  rw [row, fitted]
  dsimp only
  rw [if_neg same, columns, Inputs.row]

theorem predict_of_other_width (fitted : bank.standardizer = some s)
    (columns : bank.columns = Inputs.columns) (other : s.mean.length ≠ Inputs.columns.length)
    : bank.predict inputs = .error (.shapeMismatch s.mean.length Inputs.columns.length) := by
  have refused : bank.row inputs
      = .error (.shapeMismatch s.mean.length Inputs.columns.length) := by
    have length : (inputs.project bank.columns).length = Inputs.columns.length := by
      simp [Inputs.project, columns]
    rw [row, fitted]
    dsimp only
    rw [length]
    exact if_pos other
  rw [predict, refused]
  rfl

/-- A bank that predicts from all inputs has a divisor for each of their columns. -/
theorem UsableOn.scale_length (usable : bank.UsableOn inputs)
    (fitted : bank.standardizer = some s)
    : Inputs.columns.length ≤ s.scale.length := by
  obtain ⟨other, row, same, scales, -⟩ := usable
  obtain rfl : other = s := Option.some.inj (same.symm.trans fitted)
  simpa [Inputs.row, Inputs.project] using scales.length_le.2

-----------------------------------------------------------------------------------------
-- Loaded banks
-----------------------------------------------------------------------------------------

/-- A bank that is loaded is trained, and on the columns of the inputs. -/
theorem of_loadRead {saved : Option Json} (loaded : loadRead saved = .ok bank)
    : bank.isTrained = true ∧ bank.columns = Inputs.columns := by
  unfold loadRead at loaded
  split at loaded
  next => cases loaded
  next read found =>
    split at loaded
    next trained =>
      unfold columnsProblem? at loaded
      split at loaded
      next columns =>
        obtain rfl : read = bank := Except.ok.inj loaded
        exact ⟨trained, columns⟩
      next => cases loaded
    next => cases loaded

/-- Main statement: a bank that is loaded predicts from all inputs exactly where its standardizer
has a shift for each column, no more and no less, and at least as many divisors. With another number
of shifts it predicts nothing, and with fewer divisors it predicts from the first columns alone.
-/
theorem loaded_usable_iff (bytes : ByteArray) (bank : Bank) (loaded : loadBytes bytes = .ok bank)
    : ∃ s, bank.standardizer = some s
      ∧ ∀ inputs,
        (bank.UsableOn inputs
          ↔ s.mean.length = Inputs.columns.length ∧ Inputs.columns.length ≤ s.scale.length)
        ∧ (s.mean.length = Inputs.columns.length
          → bank.PredictsFrom inputs (s.transform inputs.row)
            ∧ (s.transform inputs.row).length = min Inputs.columns.length s.scale.length)
        ∧ (s.mean.length ≠ Inputs.columns.length
          → bank.predict inputs
            = .error (.shapeMismatch s.mean.length Inputs.columns.length)) := by
  obtain ⟨trained, columns⟩ := of_loadRead loaded
  obtain ⟨⟨s, fitted⟩, learned⟩ := exists_of_isTrained trained
  refine ⟨s, fitted, fun inputs => ?_⟩
  have raw : inputs.row.length = Inputs.columns.length := by simp [Inputs.row, Inputs.project]
  have predicts (wide : s.mean.length = Inputs.columns.length)
      : bank.PredictsFrom inputs (s.transform inputs.row) :=
    predictsFrom_of_row learned (row_eq_ok fitted columns wide)
  refine ⟨⟨fun usable => ⟨?_, usable.scale_length fitted⟩, ?_⟩, fun wide => ⟨predicts wide, ?_⟩,
    predict_of_other_width fitted columns⟩
  · by_contra other
    obtain ⟨-, -, -, -, predictions, predicted, -⟩ := usable
    rw [predict_of_other_width fitted columns other] at predicted
    cases predicted
  · rintro ⟨wide, enough⟩
    exact ⟨s, _, fitted, Standardizer.scales_transform (by omega) (by omega), predicts wide⟩
  · rw [Standardizer.length_transform]
    omega

theorem loaded_stumps_usable
    : ∃ bytes, loadBytes bytes = .ok stumps ∧ ∀ inputs, stumps.UsableOn inputs := by
  have loaded : loadBytes (write stumps.toJson).toUTF8 = .ok stumps :=
    loadRead_of_isTrained stumps_held.read.2 (by decide +kernel) rfl
  obtain ⟨s, fitted, each⟩ := loaded_usable_iff _ stumps loaded
  obtain rfl := Option.some.inj fitted
  exact ⟨_, loaded, fun inputs => (each inputs).1.mpr ⟨by decide, by decide⟩⟩

/-- The bank of small learners with another standardizer. -/
def stumpsOver (s : Standardizer) : Bank :=
  { stumps with standardizer := some s }

theorem loadBytes_stumpsOver {s : Standardizer} (held : s.Held)
    : loadBytes (write (stumpsOver s).toJson).toUTF8 = .ok (stumpsOver s) := by
  have whole : (stumpsOver s).Held :=
    { stumps_held with
      standardizer := by
        rintro other ⟨⟩
        exact held }
  have trained : stumps.isTrained = true := by decide +kernel
  exact loadRead_of_isTrained whole.read.2 trained rfl

/-- A bank without divisors is loaded, and predicts from a row without columns. -/
theorem loaded_without_divisors
    : ∃ bytes, loadBytes bytes = .ok (stumpsOver ⟨Inputs.columns.map fun _ => 0.0, []⟩)
      ∧ (stumpsOver ⟨Inputs.columns.map fun _ => 0.0, []⟩).PredictsFrom
          ⟨.ofLines 1, .conservative⟩ []
      ∧ ¬(stumpsOver ⟨Inputs.columns.map fun _ => 0.0, []⟩).UsableOn
          ⟨.ofLines 1, .conservative⟩ := by
  refine ⟨_, loadBytes_stumpsOver ⟨by decide +kernel, by decide +kernel⟩, ?_, ?_⟩
  · exact predictsFrom_of_row (exists_of_isTrained (by decide +kernel)).2 rfl
  · intro usable
    have enough := usable.scale_length rfl
    exact absurd enough (by decide)

end Bank

end RangeTuner.Learning
