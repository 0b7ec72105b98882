import RangeTuner.Proofs.Learning.Training

/-! The dataset that a bank draws for itself. Whatever is drawn, a row has all columns and every
optimization has a label for each row, so training on it never fails: of all settings, those
with a problem are the only ones that a bank cannot be trained under.
-/

namespace RangeTuner.Learning

-----------------------------------------------------------------------------------------
-- What is always drawn
-----------------------------------------------------------------------------------------

namespace Draw

variable {α β : Type} {p : α → Prop} {q : β → Prop}

/-- Whatever the generator, what is drawn has a property. -/
def Always (draw : Draw α) (p : α → Prop) : Prop :=
  ∀ g, p (draw.run g).1

theorem always_pure {a : α} (held : p a)
    : Always (pure a) p :=
  fun _ => held

theorem Always.bind {draw : Draw α} {next : α → Draw β} (drawn : draw.Always p)
    (step : ∀ a, p a → (next a).Always q)
    : (draw >>= next).Always q :=
  fun g => step _ (drawn g) _

/-- A draw of which nothing is known. -/
theorem always_true (draw : Draw α)
    : draw.Always fun _ => True :=
  fun _ => trivial

/-- The first entries of a shuffled list are entries of the list. -/
theorem always_take_shuffle (items : List α) (count : Nat)
    : Always (do return (← shuffle items).take count) fun taken =>
        ∀ item ∈ taken, item ∈ items :=
  fun g _ member => (shuffle_perm items g).mem_iff.mp (List.mem_of_mem_take member)

/-- Drawing for each entry of a list draws what is always drawn for it. -/
theorem always_mapM {draw : α → Draw β} {related : α → β → Prop}
    (drawn : ∀ x, (draw x).Always (related x)) (xs : List α)
    : (xs.mapM draw).Always (List.Forall₂ related xs) := by
  induction xs with
  | nil => exact always_pure .nil
  | cons x rest ih =>
      rw [List.mapM_cons]
      exact (drawn x).bind fun y first => ih.bind fun ys others =>
        always_pure (.cons first others)

/-- Repeated draws are as many as asked for. -/
theorem Always.replicate {draw : Draw α} (drawn : draw.Always p) (count : Nat)
    : (replicate count draw).Always fun xs => xs.length = count ∧ ∀ x ∈ xs, p x := by
  intro g
  have each := always_mapM (fun _ => drawn) (List.range count) g
  refine ⟨each.length_eq.symm.trans List.length_range, fun x member => ?_⟩
  obtain ⟨-, drawn⟩ := exists_of_mem_right each x member
  exact drawn

end Draw

-----------------------------------------------------------------------------------------
-- Samples
-----------------------------------------------------------------------------------------

/-- A sample whose row has all columns. -/
def Sample.IsWide (sample : Sample) : Prop :=
  sample.row.length = Inputs.columns.length

namespace Regime

theorem length_write (name : String) (figure : Float) (row : List Float)
    : (write name figure row).length = row.length := by
  unfold write
  split
  · exact List.length_set
  · rfl

theorem drawFeatures_always (jitters : List Jitter) (row : List Float)
    : (drawFeatures jitters row).Always fun drawn => drawn.length = row.length := by
  induction jitters generalizing row with
  | nil => exact Draw.always_pure rfl
  | cons jitter rest ih =>
      refine (Draw.always_true _).bind fun drawn _ g => ?_
      exact (ih _ g).trans (length_write _ _ _)

theorem drawSample_always (regime : Regime)
    : regime.drawSample.Always Sample.IsWide := by
  refine Draw.Always.bind (p := fun row => row.length = Inputs.columns.length) ?_ ?_
  · refine (drawFeatures_always _ _).bind fun row features => ?_
    iterate 3 refine (Draw.always_true _).bind fun _ _ => ?_
    apply Draw.always_pure
    simpa [length_write] using features
  · exact fun row wide => (Draw.always_true _).bind fun _ _ => Draw.always_pure wide

/-- As many samples are drawn as are configured, each with all columns. -/
theorem drawSamples_always (regime : Regime)
    : regime.drawSamples.Always fun samples =>
        samples.length = regime.samples ∧ ∀ sample ∈ samples, sample.IsWide :=
  regime.drawSample_always.replicate regime.samples

end Regime

namespace Dataset

/-- The samples of all regimes have all columns, and there are some if a regime has some. -/
theorem drawAll_always (regimes : List Regime)
    : (drawAll regimes).Always fun samples =>
        (∀ sample ∈ samples, sample.IsWide)
        ∧ ((∃ regime ∈ regimes, regime.samples ≠ 0) → samples ≠ []) := by
  refine (Draw.always_mapM Regime.drawSamples_always regimes).bind fun drawn each =>
    Draw.always_pure ?_
  induction each with
  | nil => simp
  | @cons regime samples _ _ first others ih =>
      obtain ⟨many, wide⟩ := first
      rw [List.flatten_cons]
      constructor
      · intro sample member
        rcases List.mem_append.mp member with here | later
        · exact wide sample here
        · exact ih.1 sample later
      · rintro ⟨sampled, member, positive⟩ none
        rw [List.append_eq_nil_iff] at none
        rcases List.mem_cons.mp member with rfl | later
        · exact positive (by rw [← many, none.1]; rfl)
        · exact ih.2 ⟨sampled, later, positive⟩ none.2

/-- The dataset of wide samples has no fault. -/
theorem fault?_ofSamples {samples : List Sample} (some_samples : samples ≠ [])
    (wide : ∀ sample ∈ samples, sample.IsWide)
    : (ofSamples samples).fault? Inputs.columns.length = none := by
  have none_narrow
      : (ofSamples samples).rows.find? (fun row => row.length ≠ Inputs.columns.length)
        = none := by
    simpa [ofSamples, List.find?_eq_none, Sample.IsWide] using wide
  rw [fault?, if_neg (by simpa [ofSamples] using some_samples), none_narrow]
  rfl

theorem labelsReach_ofSamples (samples : List Sample)
    : (ofSamples samples).LabelsReach := by
  intro optimization labels present
  obtain rfl := Option.some.inj present
  simp [ofSamples]

/-- Regimes with samples make a dataset without a fault. -/
theorem synthesize_eq_ok {regimes : List Regime} (seed : UInt64)
    (sampled : ∃ regime ∈ regimes, regime.samples ≠ 0)
    : ∃ dataset, synthesize regimes seed = .ok dataset
      ∧ dataset.LabelsReach
      ∧ dataset.fault? Inputs.columns.length = none := by
  obtain ⟨wide, some_samples⟩ := drawAll_always regimes (.ofSeed seed)
  refine ⟨_, if_neg ?_, labelsReach_ofSamples _, fault?_ofSamples (some_samples sampled) wide⟩
  simpa using some_samples sampled

end Dataset

/-- Settings without a problem have a regime with samples. -/
theorem TrainingSettings.exists_sampled {settings : TrainingSettings}
    (sound : settings.problem? = none)
    : ∃ regime ∈ settings.regimes, regime.samples ≠ 0 := by
  unfold problem? at sound
  split at sound
  next => cases sound
  next =>
    split at sound
    next => cases sound
    next sampled => simpa using sampled

namespace Bank

variable {bank : Bank}

/-- Under settings with a problem, a bank does not train itself. -/
theorem train_of_problem {problem : String} (unsound : bank.settings.problem? = some problem)
    : bank.train = .error (.invalidConfig problem) := by
  rw [train, unsound]
  rfl

/-- What a bank makes of itself depends on its settings and columns alone. -/
theorem train_congr {other : Bank} (settings : bank.settings = other.settings)
    (columns : bank.columns = other.columns)
    : bank.train = other.train := by
  simp only [train, settings, trainOn_congr settings columns]

/-- Under settings without a problem, a bank trains itself on a dataset without a fault. -/
theorem train_of_sound (sound : bank.settings.problem? = none)
    : ∃ dataset, bank.train = bank.trainOn dataset
      ∧ dataset.LabelsReach
      ∧ dataset.fault? Inputs.columns.length = none := by
  obtain ⟨dataset, drawn, whole⟩ :=
    Dataset.synthesize_eq_ok bank.settings.seed (TrainingSettings.exists_sampled sound)
  refine ⟨dataset, ?_, whole⟩
  rw [train, sound, drawn]
  rfl

end Bank

end RangeTuner.Learning
