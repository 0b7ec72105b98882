import RangeTuner.Proofs.Learning.CheckedTrees

/-! Learners fitted with every access checked. Main statement: whatever its kind, a learner fits
rows of one width without an access out of range.
-/

namespace RangeTuner.Learning

namespace Checked

variable {α β : Type}

theorem bind_of_ok {first : Checked α} {a : α} {next : α → Checked β} {result : Checked β}
    (came : first = .ok a) (second : next a = result)
    : (first >>= next) = result := by
  subst came
  exact second

/-- A computation that may fail goes on as the checked one does. -/
theorem ofExcept_bind {first : Except Fault α} {next : α → Except Fault β}
    {checkedNext : α → Checked β}
    (second : ∀ a, first = .ok a → checkedNext a = ofExcept (next a))
    : (ofExcept first >>= checkedNext) = ofExcept (first >>= next) := by
  cases first with
  | error fault => rfl
  | ok a => exact second a rfl

/-- Rows with labels are examples of these rows. -/
theorem zip_eq_ok_iff {rows : List (List α)} {labels : List Bool}
    {examples : List (Example α)}
    : Example.zip rows labels = .ok examples
      ↔ rows ≠ [] ∧ rows.length = labels.length ∧ rows.zipWith .mk labels = examples := by
  unfold Example.zip
  split
  next none => simp_all
  next some_rows =>
    split
    next unpaired => simp [unpaired]
    next paired => simp_all

/-- The rows of examples are the rows that they were made from. -/
theorem map_row_of_zip {rows : List (List α)} {labels : List Bool}
    {examples : List (Example α)} (zipped : Example.zip rows labels = .ok examples)
    : examples.map Example.row = rows := by
  obtain ⟨-, paired, rfl⟩ := zip_eq_ok_iff.mp zipped
  have first := List.map_fst_zip (Nat.le_of_eq paired)
  rw [List.zip, List.map_zipWith] at first
  rw [List.map_zipWith]
  exact first

theorem length_row_of_zip {rows : List (List α)} {labels : List Bool}
    {examples : List (Example α)} (zipped : Example.zip rows labels = .ok examples)
    {width : Nat} (wide : ∀ row ∈ rows, row.length = width)
    : ∀ e ∈ examples, e.row.length = width := by
  intro e member
  exact wide e.row (map_row_of_zip zipped ▸ List.mem_map_of_mem member)

-----------------------------------------------------------------------------------------
-- Forests
-----------------------------------------------------------------------------------------

section Forests

variable [Scalar α]

/-- A few drawn columns. -/
def drawColumns (width : Nat) : CheckedDraw (List Nat) := do
  return (← shuffle (List.range width)).take (max (Forest.ceilSqrt width) 1)

/-- One tree of a forest, grown on as many places as there are, drawn with repetition. -/
def drawTree (settings : ForestSettings) (width : Nat) (examples : Array (Example α))
    : CheckedDraw (Tree α) := do
  let places ← ofDraw (Draw.replicate examples.size (Draw.below examples.size))
  grow (Forest.grower settings width) Example.row examples (drawColumns width) settings.maxDepth
    places

/-- The forest grown on rows and their labels. -/
def fitForest (forest : Forest α) (rows : List (List α)) (labels : List Bool)
    : Checked (Forest α) := do
  let examples ← ofExcept (Example.zip rows labels)
  let first ← found rows[0]?
  let trees ← (List.range forest.settings.trees).mapM fun t => do
    let drawn ← (drawTree forest.settings first.length examples.toArray).run
      (.ofStream forest.seed t.toUInt64)
    return drawn.1
  return { forest with trees := trees }

/-- The columns of a split are columns of the rows. -/
theorem always_columns (settings : ForestSettings) (width : Nat)
    : (Forest.grower (α := α) settings width).columns.Always
        fun features => ∀ feature ∈ features, feature < width :=
  fun g feature member => List.mem_range.mp (Draw.always_take_shuffle _ _ g feature member)

theorem follows_drawTree (settings : ForestSettings) {width : Nat}
    {examples : Array (Example α)} (filled : 0 < examples.size)
    (wide : ∀ e ∈ examples.toList, e.row.length = width)
    : Follows (drawTree settings width examples) (Forest.drawTree settings width examples) := by
  let grower : Grower (Example α) α := Forest.grower settings width
  have within : Within grower Example.row examples width := by
    refine ⟨fun _ _ => rfl, fun place e here => ?_, ?_⟩
    · exact wide e (Array.mem_toList_iff.mpr (Array.mem_of_getElem? here))
    · exact Nat.lt_of_lt_of_le (by decide) (Nat.le_max_right settings.minSamplesSplit 2)
  have columns : Follows (drawColumns width) grower.columns :=
    (follows_shuffle _).bind (Draw.always_true _) fun order _ => follows_pure _
  rw [Forest.drawTree, Forest.bootstrap, bind_assoc]
  refine (follows_ofDraw _).bind ((always_below filled).replicate _) fun places drawn => ?_
  obtain ⟨seen, all, rfl, shown⟩ := exists_seen drawn.2
  rw [pure_bind, ← shown]
  exact within.follows_grow columns (always_columns settings width) settings.maxDepth all

/-- On rows of one width, a forest is grown without an access out of range. -/
theorem fitForest_eq (forest : Forest α) {rows : List (List α)} (labels : List Bool)
    {width : Nat} (wide : ∀ row ∈ rows, row.length = width)
    : fitForest forest rows labels = ofExcept (forest.fit rows labels) := by
  refine ofExcept_bind fun examples zipped => ?_
  have each := length_row_of_zip zipped wide
  have rowsOf := map_row_of_zip zipped
  obtain ⟨filled, -, -⟩ := zip_eq_ok_iff.mp zipped
  cases examples with
  | nil => exact absurd rowsOf.symm filled
  | cons e others =>
      have first : rows[0]? = some e.row := by rw [← rowsOf]; rfl
      have trees : (List.range forest.settings.trees).mapM (fun t => do
            let drawn ← (drawTree forest.settings e.row.length (e :: others).toArray).run
              (.ofStream forest.seed t.toUInt64)
            return drawn.1)
          = .ok (Forest.growTrees forest.settings forest.seed (e :: others)) := by
        refine mapM_eq_ok_map fun t _ => ?_
        rw [follows_drawTree forest.settings (by simp) (by simpa [each e] using each)]
        rfl
      exact bind_of_ok (congrArg found first) (bind_of_ok trees rfl)

end Forests

-----------------------------------------------------------------------------------------
-- Boosted trees
-----------------------------------------------------------------------------------------

/-- The tree for what is left unexplained. -/
def growBoosted (settings : BoostingSettings) (width : Nat) (examples : List Boosting.Scored)
    : Checked (Tree Float) := do
  let residuals := (examples.map Boosting.Scored.residual).toArray
  let grown ← (grow (Boosting.grower width) Boosting.Residual.row residuals
    (return List.range width) settings.maxDepth (List.range residuals.size)).run (.ofSeed 0)
  return grown.1

/-- Grows one tree after the other, so many of them. -/
def growRounds (settings : BoostingSettings) (width : Nat)
    : (rounds : Nat) → List Boosting.Scored → Checked (List (Tree Float))
  | 0, _ => return []
  | rounds + 1, examples => do
      let tree ← growBoosted settings width examples
      let moved := examples.map fun e =>
        { e with score := e.score + settings.learningRate * tree.eval e.row }
      return tree :: (← growRounds settings width rounds moved)

/-- The boosted trees grown on rows and their labels. -/
def fitBoosting (boosting : Boosting) (rows : List (List Float)) (labels : List Bool)
    : Checked Boosting := do
  let examples ← ofExcept (Example.zip rows labels)
  let base := Boosting.baseScore (labels.map Scalar.ofBool)
  let width := (rows.headD []).length
  let scored := examples.map fun e => Boosting.Scored.mk e.row (Scalar.ofBool e.label) base
  let trees ← growRounds boosting.settings width boosting.settings.rounds scored
  return { boosting with base := base, trees := trees }

/-- All places of a list together have all of its entries. -/
theorem filterMap_range_length (xs : List α)
    : (List.range xs.length).filterMap (xs[·]?) = xs := by
  induction xs with
  | nil => rfl
  | cons x rest ih =>
      rw [List.length_cons, List.range_succ_eq_map, List.filterMap_cons, List.filterMap_map]
      exact congrArg (x :: ·) ih

theorem growBoosted_eq_ok (settings : BoostingSettings) {width : Nat}
    {examples : List Boosting.Scored} (wide : ∀ e ∈ examples, e.row.length = width)
    : growBoosted settings width examples = .ok (Boosting.growTree settings width examples) := by
  have within : Within (Boosting.grower width) Boosting.Residual.row
      (examples.map Boosting.Scored.residual).toArray width := by
    refine ⟨fun _ _ => rfl, fun place residual here => ?_, Nat.zero_lt_two⟩
    obtain ⟨e, member, rfl⟩ := List.mem_map.mp (List.mem_of_getElem? (by simpa using here))
    exact wide e member
  have below : (Boosting.grower width).columns.Always
      fun features => ∀ feature ∈ features, feature < width :=
    Draw.always_pure fun feature => List.mem_range.mp
  have inRange : ∀ place ∈ List.range (examples.map Boosting.Scored.residual).toArray.size,
      place < (examples.map Boosting.Scored.residual).toArray.size :=
    fun place => List.mem_range.mp
  obtain ⟨seen, all, places, shown⟩ := exists_seen inRange
  have residuals : seen.map Prod.snd = examples.map Boosting.Scored.residual := by
    simp only [shown, List.getElem?_toArray, List.size_toArray]
    exact filterMap_range_length _
  have grown := within.follows_grow (follows_pure _) below settings.maxDepth all (.ofSeed 0)
  rw [places, residuals] at grown
  exact bind_of_ok grown rfl

theorem growRounds_eq_ok (settings : BoostingSettings) {width : Nat} (rounds : Nat)
    {examples : List Boosting.Scored} (wide : ∀ e ∈ examples, e.row.length = width)
    : growRounds settings width rounds examples
      = .ok (Boosting.growTrees settings width rounds examples) := by
  induction rounds generalizing examples with
  | zero => rfl
  | succ rounds ih =>
      refine bind_of_ok (growBoosted_eq_ok settings wide) (bind_of_ok (ih ?_) rfl)
      exact List.forall_mem_map.mpr wide

/-- On rows of one width, boosted trees are grown without an access out of range. -/
theorem fitBoosting_eq (boosting : Boosting) {rows : List (List Float)} (labels : List Bool)
    {width : Nat} (wide : ∀ row ∈ rows, row.length = width)
    : fitBoosting boosting rows labels = ofExcept (boosting.fit rows labels) := by
  refine ofExcept_bind fun examples zipped => ?_
  have each := length_row_of_zip zipped wide
  obtain ⟨filled, -, -⟩ := zip_eq_ok_iff.mp zipped
  have first : (rows.headD []).length = width := by
    cases rows with
    | nil => exact absurd rfl filled
    | cons row _ => exact wide row List.mem_cons_self
  refine bind_of_ok (growRounds_eq_ok boosting.settings boosting.settings.rounds ?_) rfl
  rw [first]
  exact List.forall_mem_map.mpr each

-----------------------------------------------------------------------------------------
-- Linear margins
-----------------------------------------------------------------------------------------

/-- Goes through the examples at some places, once. -/
def passOver (settings : MarginSettings) (examples : Array (Example Float)) (order : List Nat)
    (p : Margin.Progress)
    : Checked Margin.Progress :=
  order.foldlM (fun p place => do return p.step settings (← found examples[place]?)) p

/-- Goes through the examples so many times. -/
def trainMargin (settings : MarginSettings) (examples : Array (Example Float))
    : (epochs : Nat) → List Nat → Margin.Progress → CheckedDraw Margin.Progress
  | 0, _, p => return p
  | epochs + 1, order, p => do
      let order ← shuffle order
      let p ← passOver settings examples order p
      trainMargin settings examples epochs order p

/-- The margin trained on rows and their labels. -/
def fitMargin (margin : Margin) (rows : List (List Float)) (labels : List Bool)
    : Checked Margin := do
  let examples ← ofExcept (Example.zip rows labels)
  let first ← found rows[0]?
  let start : Margin.Progress := ⟨0.0, first.map fun _ => 0.0, 0.0⟩
  let order := List.range examples.length
  let reached ← (trainMargin margin.settings examples.toArray margin.settings.epochs order
    start).run (.ofSeed margin.seed)
  return { margin with weights := reached.1.weights, bias := reached.1.bias }

theorem passOver_eq_ok (settings : MarginSettings) {examples : Array (Example Float)}
    {order : List Nat} (within : ∀ place ∈ order, place < examples.size) (p : Margin.Progress)
    : passOver settings examples order p
      = .ok ((order.filterMap (examples[·]?)).foldl (Margin.Progress.step settings) p) := by
  obtain ⟨seen, all, rfl, shown⟩ := exists_seen within
  rw [← shown, passOver, List.foldlM_map, List.foldl_map]
  refine foldlM_eq_ok_foldl (fun entry member p => ?_) p
  rw [all entry member]
  rfl

theorem follows_trainMargin (settings : MarginSettings) {examples : Array (Example Float)}
    (epochs : Nat) {order : List Nat} (within : ∀ place ∈ order, place < examples.size)
    (p : Margin.Progress)
    : Follows (trainMargin settings examples epochs order p)
        (Margin.train settings examples epochs order p) := by
  induction epochs generalizing order p with
  | zero => exact follows_pure p
  | succ epochs ih =>
      have permuted : (Draw.shuffle order).Always (·.Perm order) := Draw.shuffle_perm order
      refine (follows_shuffle order).bind permuted fun shuffled same => ?_
      have within : ∀ place ∈ shuffled, place < examples.size :=
        fun place member => within place (same.mem_iff.mp member)
      exact .of_ok (passOver_eq_ok settings within p) (ih within _)

/-- Margins are trained without an access out of range. -/
theorem fitMargin_eq (margin : Margin) (rows : List (List Float)) (labels : List Bool)
    : fitMargin margin rows labels = ofExcept (margin.fit rows labels) := by
  refine ofExcept_bind fun examples zipped => ?_
  obtain ⟨filled, -, -⟩ := zip_eq_ok_iff.mp zipped
  cases rows with
  | nil => exact absurd rfl filled
  | cons row rest =>
      have within : ∀ place ∈ List.range examples.length, place < examples.toArray.size :=
        fun place => List.mem_range.mp
      have trained := follows_trainMargin margin.settings margin.settings.epochs within
        ⟨0.0, row.map fun _ => 0.0, 0.0⟩ (.ofSeed margin.seed)
      exact bind_of_ok rfl (bind_of_ok trained rfl)

-----------------------------------------------------------------------------------------
-- Learners
-----------------------------------------------------------------------------------------

/-- The learner trained on rows and their labels. -/
def fit (learner : Learner) (rows : List (List Float)) (labels : List Bool) : Checked Learner :=
  match learner with
  | .forest f => return .forest (← fitForest f rows labels)
  | .boosting b => return .boosting (← fitBoosting b rows labels)
  | .margin m => return .margin (← fitMargin m rows labels)

/-- Learners fit rows of one width without an access out of range. -/
theorem fit_eq (learner : Learner) {rows : List (List Float)} (labels : List Bool) {width : Nat}
    (wide : ∀ row ∈ rows, row.length = width)
    : fit learner rows labels = ofExcept (learner.fit rows labels) := by
  cases learner with
  | forest f =>
      rw [fit, fitForest_eq f labels wide]
      exact ofExcept_bind fun _ _ => rfl
  | boosting b =>
      rw [fit, fitBoosting_eq b labels wide]
      exact ofExcept_bind fun _ _ => rfl
  | margin m =>
      rw [fit, fitMargin_eq m rows labels]
      exact ofExcept_bind fun _ _ => rfl

end Checked

end RangeTuner.Learning
