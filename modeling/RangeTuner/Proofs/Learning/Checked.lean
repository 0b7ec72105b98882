import RangeTuner.Proofs.Learning.Synthesis

/-! Draws with every access checked. Where a list is read or written at a place, the checked form
of a draw stops unless the place is there; a draw that never stops does what its form without the
checks does. Main statement: whatever the regimes, no dataset is drawn by an access out of range.
-/

namespace RangeTuner.Learning

/-- Why a checked computation stops. -/
inductive Halt where
  | fault (fault : Fault)
  | outOfRange

/-- A computation that stops at a fault or at an access out of range. -/
abbrev Checked (α : Type) := Except Halt α

/-- A draw that stops at a fault or at an access out of range. -/
abbrev CheckedDraw (α : Type) := StateT Generator Checked α

namespace Checked

variable {α β : Type}

/-- What is read at a place, which has to be there. -/
def found : Option α → Checked α
  | some a => .ok a
  | none => .error .outOfRange

/-- A computation that may fail, but reads nothing. -/
def ofExcept (result : Except Fault α) : Checked α :=
  result.mapError .fault

/-- A draw that reads nothing. -/
def ofDraw (draw : Draw α) : CheckedDraw α :=
  fun g => .ok (draw.run g)

/-- The checked draw never stops, and draws the same. -/
def Follows (checked : CheckedDraw α) (draw : Draw α) : Prop :=
  ∀ g, checked.run g = .ok (draw.run g)

theorem follows_ofDraw (draw : Draw α)
    : Follows (ofDraw draw) draw :=
  fun _ => rfl

theorem follows_pure (a : α)
    : Follows (pure a) (pure a) :=
  fun _ => rfl

/-- Draws follow each other step by step, where the second step needs only what the first one
always draws.
-/
theorem Follows.bind {checked : CheckedDraw α} {draw : Draw α} {p : α → Prop}
    {checkedNext : α → CheckedDraw β} {next : α → Draw β} (first : Follows checked draw)
    (always : draw.Always p) (second : ∀ a, p a → Follows (checkedNext a) (next a))
    : Follows (checked >>= checkedNext) (draw >>= next) := by
  intro g
  rw [StateT.run_bind, first g]
  exact second _ (always g) _

/-- A checked computation in front of a checked draw. -/
theorem Follows.of_ok {checked : Checked α} {a : α} {next : α → CheckedDraw β} {draw : Draw β}
    (came : checked = .ok a) (second : Follows (next a) draw)
    : Follows (liftM checked >>= next) draw := by
  subst came
  exact second

theorem Follows.lift {checked : Checked α} {a : α} (came : checked = .ok a)
    : Follows (liftM checked) (pure a) := by
  subst came
  exact follows_pure a

theorem Follows.ite {c : Prop} [Decidable c] {checked checkedElse : CheckedDraw α}
    {draw drawElse : Draw α} (first : c → Follows checked draw)
    (second : ¬c → Follows checkedElse drawElse)
    : Follows (if c then checked else checkedElse) (if c then draw else drawElse) := by
  split
  next held => exact first held
  next failed => exact second failed

theorem Follows.mapM {checked : α → CheckedDraw β} {draw : α → Draw β} {xs : List α}
    (each : ∀ x ∈ xs, Follows (checked x) (draw x))
    : Follows (xs.mapM checked) (xs.mapM draw) := by
  induction xs with
  | nil => exact follows_pure []
  | cons x rest ih =>
      obtain ⟨first, others⟩ := List.forall_mem_cons.mp each
      rw [List.mapM_cons, List.mapM_cons]
      exact first.bind (Draw.always_true _) fun y _ =>
        (ih others).bind (Draw.always_true _) fun ys _ => follows_pure (y :: ys)

-----------------------------------------------------------------------------------------
-- Shuffling
-----------------------------------------------------------------------------------------

/-- Swaps two items, both of which have to be there. -/
def swap (items : Array α) (i j : Nat) : Checked (Array α) :=
  if i < items.size ∧ j < items.size then .ok (items.swapIfInBounds i j)
  else .error .outOfRange

/-- Swaps as shuffling does. -/
def shuffleFrom : Nat → Array α → CheckedDraw (Array α)
  | 0, items => return items
  | last + 1, items => do
      let other ← ofDraw (Draw.below (last + 2))
      let items ← swap items (last + 1) other
      shuffleFrom last items

/-- A random order of a list. -/
def shuffle (items : List α) : CheckedDraw (List α) := do
  return (← shuffleFrom (items.length - 1) items.toArray).toList

/-- A whole number below a bound is drawn below it. -/
theorem always_below {bound : Nat} (positive : 0 < bound)
    : (Draw.below bound).Always (· < bound) := by
  intro g
  rw [Draw.below, if_neg (Nat.ne_of_gt positive)]
  exact Nat.mod_lt _ positive

/-- Items up to the last are swapped within the items, by induction on the place of the last. -/
theorem follows_shuffleFrom {last : Nat} {items : Array α} (within : last ≤ items.size - 1)
    : Follows (shuffleFrom last items) (Draw.shuffleFrom last items) := by
  induction last generalizing items with
  | zero => exact follows_pure items
  | succ last ih =>
      refine (follows_ofDraw _).bind (always_below (Nat.succ_pos _)) fun other below => ?_
      have swapped : swap items (last + 1) other = .ok (items.swapIfInBounds (last + 1) other) :=
        if_pos ⟨by omega, by omega⟩
      have size : (items.swapIfInBounds (last + 1) other).size = items.size :=
        Array.size_swapIfInBounds
      exact .of_ok swapped (ih (by omega))

theorem follows_shuffle (items : List α)
    : Follows (shuffle items) (Draw.shuffle items) :=
  (follows_shuffleFrom (by simp)).bind (Draw.always_true _) fun items _ =>
    follows_pure items.toList

-----------------------------------------------------------------------------------------
-- Datasets
-----------------------------------------------------------------------------------------

/-- Writes a figure under its name, at a place that has to be there. -/
def write (name : String) (figure : Float) (row : List Float) : Checked (List Float) :=
  match Inputs.columnOf? name with
  | some place => if place < row.length then .ok (row.set place figure) else .error .outOfRange
  | none => .ok row

/-- Draws each jittered feature, in order. -/
def drawFeatures : List Jitter → List Float → CheckedDraw (List Float)
  | [], row => return row
  | jitter :: rest, row => do
      let drawn ← ofDraw (Draw.between jitter.low jitter.high)
      let row ← write jitter.feature (.ofInt drawn) row
      drawFeatures rest row

open RangeTuner.Spec in
/-- One row of a regime. -/
def drawRow (regime : Regime) : CheckedDraw (List Float) := do
  let row ← drawFeatures regime.codeFeatures (Inputs.columns.map fun _ => 0.0)
  let area ← ofDraw (Draw.uniform regime.area.1 regime.area.2)
  let category ← ofDraw (Draw.between regime.areaCategory.1 regime.areaCategory.2)
  let vehicle ← ofDraw (Draw.between regime.vehicle.1 regime.vehicle.2)
  let small := if regime.smallRange then 1.0 else 0.0
  let row ← write Facts.area area row
  let row ← write Facts.category (.ofInt category) row
  let row ← write (Facts.smallOf Axis.latitude.name) small row
  let row ← write (Facts.smallOf Axis.longitude.name) small row
  write Facts.vehicle (.ofInt vehicle) row

/-- One labelled row of a regime. -/
def drawSample (regime : Regime) : CheckedDraw Sample := do
  let row ← drawRow regime
  let labels ← ofDraw regime.drawLabels
  return ⟨row, labels⟩

/-- The labelled rows of all regimes, in order. -/
def drawAll (regimes : List Regime) : CheckedDraw (List Sample) := do
  let drawn ← regimes.mapM fun regime =>
    (List.range regime.samples).mapM fun _ => drawSample regime
  return drawn.flatten

/-- The dataset of a list of regimes and a seed. -/
def synthesize (regimes : List Regime) (seed : UInt64) : Checked Dataset := do
  let drawn ← (drawAll regimes).run (.ofSeed seed)
  if drawn.1.isEmpty then .error (.fault .emptyTrainingSet) else .ok (.ofSamples drawn.1)

/-- A row with all columns has the place of every name. -/
theorem write_eq_ok (name : String) (figure : Float) {row : List Float}
    (wide : row.length = Inputs.columns.length)
    : write name figure row = .ok (Regime.write name figure row) := by
  unfold write Regime.write
  cases named : Inputs.columnOf? name with
  | none => rfl
  | some place =>
      have within : place < Inputs.columns.length :=
        (List.findIdx?_eq_some_iff_findIdx_eq.mp named).1
      simp only [wide, within, if_true]

theorem follows_drawFeatures (jitters : List Jitter) {row : List Float}
    (wide : row.length = Inputs.columns.length)
    : Follows (drawFeatures jitters row) (Regime.drawFeatures jitters row) := by
  induction jitters generalizing row with
  | nil => exact follows_pure row
  | cons jitter rest ih =>
      refine (follows_ofDraw _).bind (Draw.always_true _) fun drawn _ => ?_
      exact .of_ok (write_eq_ok _ _ wide) (ih ((Regime.length_write _ _ _).trans wide))

/-- Every row is drawn within its columns. -/
theorem follows_drawRow (regime : Regime)
    : Follows (drawRow regime) regime.drawRow := by
  have start : (Inputs.columns.map fun _ => (0.0 : Float)).length = Inputs.columns.length :=
    List.length_map _
  refine (follows_drawFeatures _ start).bind (Regime.drawFeatures_always _ _) fun row wide => ?_
  iterate 3 refine (follows_ofDraw _).bind (Draw.always_true _) fun _ _ => ?_
  have wide := wide.trans start
  iterate 4
    refine .of_ok (write_eq_ok _ _ ?_) ?_
    · simp only [Regime.length_write, wide]
  refine .lift (write_eq_ok _ _ ?_)
  simp only [Regime.length_write, wide]

theorem follows_drawAll (regimes : List Regime)
    : Follows (drawAll regimes) (Dataset.drawAll regimes) := by
  have sample : ∀ regime : Regime, Follows (drawSample regime) regime.drawSample := by
    intro regime
    refine (follows_drawRow regime).bind (Draw.always_true _) fun row _ => ?_
    exact (follows_ofDraw _).bind (Draw.always_true _) fun labels _ => follows_pure _
  refine Follows.bind ?_ (Draw.always_true _) fun drawn _ => follows_pure drawn.flatten
  exact .mapM fun regime _ => .mapM fun place _ => sample regime

/-- Main statement: no dataset is drawn by an access out of range. -/
theorem synthesize_eq (regimes : List Regime) (seed : UInt64)
    : synthesize regimes seed = ofExcept (Dataset.synthesize regimes seed) := by
  rw [synthesize, follows_drawAll regimes, Dataset.synthesize]
  simp only [bind, Except.bind]
  split <;> rfl

end Checked

end RangeTuner.Learning
