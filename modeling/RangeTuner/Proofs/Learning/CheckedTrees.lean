import RangeTuner.Proofs.Learning.Checked

/-! Trees grown with every access checked. Examples are known by their places, as positions in an
array; each reading finds the example at its place and the column in its row. Main statement:
where all rows have the same width and columns are drawn below it, no tree is grown by an access
out of range.
-/

namespace RangeTuner.Learning.Checked

variable {ε α : Type}

-----------------------------------------------------------------------------------------
-- Examples at places
-----------------------------------------------------------------------------------------

/-- The examples at some places, all of which have to be there. -/
def pick (examples : Array ε) (places : List Nat) : Checked (List ε) :=
  places.mapM fun place => found examples[place]?

/-- Each example stands at the place it is paired with. -/
def Seen (examples : Array ε) (seen : List (Nat × ε)) : Prop :=
  ∀ entry ∈ seen, examples[entry.1]? = some entry.2

theorem Seen.of_subset {examples : Array ε} {seen others : List (Nat × ε)}
    (all : Seen examples others) (part : seen ⊆ others)
    : Seen examples seen :=
  fun entry member => all entry (part member)

theorem Seen.filter {examples : Array ε} {seen : List (Nat × ε)} (all : Seen examples seen)
    (keep : Nat × ε → Bool)
    : Seen examples (seen.filter keep) :=
  all.of_subset fun _ member => (List.mem_filter.mp member).1

/-- What is computed for each place in order is computed for each example. -/
theorem mapM_eq_ok_map {β γ : Type} {f : β → Checked γ} {g : β → γ} {xs : List β}
    (each : ∀ x ∈ xs, f x = .ok (g x))
    : xs.mapM f = .ok (xs.map g) := by
  induction xs with
  | nil => rfl
  | cons x rest ih =>
      obtain ⟨first, others⟩ := List.forall_mem_cons.mp each
      rw [List.mapM_cons, first, ih others]
      rfl

theorem Seen.pick_eq_ok {examples : Array ε} {seen : List (Nat × ε)} (all : Seen examples seen)
    : pick examples (seen.map Prod.fst) = .ok (seen.map Prod.snd) := by
  rw [pick, List.mapM_map]
  exact mapM_eq_ok_map fun entry member => by simp [all entry member, found]

/-- Places below the number of examples have examples. -/
theorem exists_seen {examples : Array ε} {places : List Nat}
    (within : ∀ place ∈ places, place < examples.size)
    : ∃ seen, Seen examples seen ∧ seen.map Prod.fst = places
      ∧ seen.map Prod.snd = places.filterMap (examples[·]?) := by
  induction places with
  | nil => exact ⟨[], nofun, rfl, rfl⟩
  | cons place rest ih =>
      obtain ⟨first, others⟩ := List.forall_mem_cons.mp within
      obtain ⟨seen, all, fst, snd⟩ := ih others
      have present : examples[place]? = some examples[place] := by simp [first]
      refine ⟨(place, examples[place]) :: seen, ?_, by simp [fst], by simp [snd, present]⟩
      exact List.forall_mem_cons.mpr ⟨present, all⟩

-----------------------------------------------------------------------------------------
-- Growing
-----------------------------------------------------------------------------------------

variable [Scalar α] (grower : Grower ε α) (row : ε → List α) (examples : Array ε)

/-- A column of the example at a place. -/
def reading (feature place : Nat) : Checked α := do
  found (row (← found examples[place]?))[feature]?

/-- The places in ascending order of their readings. -/
def ordered (places : List Nat) (feature : Nat) : Checked (List Nat) := do
  let keyed ← places.mapM fun place => do return (← reading row examples feature place, place)
  return (keyed.mergeSort fun p q => Scalar.before p.1 q.1).map Prod.snd

/-- Goes through the places in an order, so many steps from the place `k` on, and keeps the best
cut between two neighbours.
-/
def scan (feature : Nat) (all : Moments α) (order : List Nat)
    : (steps k : Nat) → (sum squares : α) → Option (Cut α) → Checked (Option (Cut α))
  | 0, _, _, _, best => return best
  | steps + 1, k, sum, squares, best => do
      let here ← found order[k]?
      let y := grower.target (← found examples[here]?)
      let a ← reading row examples feature here
      let b ← reading row examples feature (← found order[k + 1]?)
      let sum := sum + y
      let squares := squares + y * y
      scan feature all order steps (k + 1) sum squares
        (Grower.consider feature all (k + 1) sum squares best a b)

/-- The number of neighbours in an order, which must not be empty. -/
def neighbours (order : List Nat) : Checked Nat :=
  if order.isEmpty then .error .outOfRange else .ok (order.length - 1)

/-- The best cut of the given columns, if one gains enough. -/
def bestCut? (places : List Nat) (features : List Nat) : Checked (Option (Cut α)) := do
  let all := Moments.ofList ((← pick examples places).map grower.target)
  let best ← features.foldlM (fun best feature => do
      let order ← ordered row examples places feature
      scan grower row examples feature all order (← neighbours order) 0 Scalar.zero Scalar.zero
        best)
    none
  return best.filter fun cut => Scalar.lt Grower.margin cut.gain

/-- The places on each side of a cut. -/
def divide (cut : Cut α) (places : List Nat) : Checked (List Nat × List Nat) := do
  let sides ← places.mapM fun place => do
    return (place, Scalar.le (← reading row examples cut.feature place) cut.threshold)
  return ((sides.filter fun side => side.2).map Prod.fst,
    (sides.filter fun side => !side.2).map Prod.fst)

/-- The tree of the examples at some places, with at most so many questions on a way. -/
def grow (columns : CheckedDraw (List Nat))
    : (questions : Nat) → List Nat → CheckedDraw (Tree α)
  | 0, places => do
      let shown ← pick examples places
      return .leaf (grower.leaf shown)
  | questions + 1, places => do
      let shown ← pick examples places
      let targets := Moments.ofList (shown.map grower.target)
      if places.length < grower.minSplit || Scalar.lt targets.error Grower.margin then
        return .leaf (grower.leaf shown)
      else
        let features ← columns
        match ← bestCut? grower row examples places features with
        | none => return .leaf (grower.leaf shown)
        | some cut =>
            let sides ← divide row examples cut places
            if sides.1.isEmpty || sides.2.isEmpty then return .leaf (grower.leaf shown)
            else
              return .split cut.feature cut.threshold
                (← grow columns questions sides.1) (← grow columns questions sides.2)

-----------------------------------------------------------------------------------------
-- Growing within reach
-----------------------------------------------------------------------------------------

/-- All rows have a width, readings are their columns, and single examples are not split. -/
structure Within (width : Nat) : Prop where
  reading : ∀ e feature, grower.reading e feature = (row e).getD feature Scalar.zero
  wide : ∀ (place : Nat) e, examples[place]? = some e → (row e).length = width
  splits : 0 < grower.minSplit

variable {grower row examples} {width : Nat} {seen : List (Nat × ε)}

theorem Within.reading_eq_ok (within : Within grower row examples width) {place : Nat} {e : ε}
    (here : examples[place]? = some e) {feature : Nat} (column : feature < width)
    : Checked.reading row examples feature place = .ok (grower.reading e feature) := by
  have inRow : feature < (row e).length := within.wide place e here ▸ column
  have present : (row e)[feature]? = some (row e)[feature] := List.getElem?_eq_getElem inRow
  have read : grower.reading e feature = (row e)[feature] := by
    rw [within.reading, List.getD_eq_getElem?_getD, present, Option.getD_some]
  rw [read]
  simp only [Checked.reading, here, found, bind, Except.bind, present]

/-- Entries are sorted with what they are keyed by. -/
theorem mergeSort_map {β γ : Type} {key : β → α} {f : β → α × γ} (keyed : ∀ b, (f b).1 = key b)
    (xs : List β)
    : (xs.map f).mergeSort (fun p q => Scalar.before p.1 q.1)
      = (xs.mergeSort fun p q => Scalar.before (key p) (key q)).map f :=
  (List.map_mergeSort fun p _ q _ => by rw [keyed p, keyed q]).symm

/-- Whatever is made of places and the readings at them is made of the examples. -/
theorem Within.mapM_reading_eq_ok {β : Type} (within : Within grower row examples width)
    (all : Seen examples seen) {feature : Nat} (column : feature < width) (f : Nat → α → β)
    : (seen.map Prod.fst).mapM
        (fun place => do return f place (← Checked.reading row examples feature place))
      = .ok (seen.map fun entry => f entry.1 (grower.reading entry.2 feature)) := by
  rw [List.mapM_map]
  refine mapM_eq_ok_map fun entry member => ?_
  simp only [Function.comp, within.reading_eq_ok (all entry member) column]
  rfl

/-- The places are put in the order of their examples. -/
theorem Within.ordered_eq_ok (within : Within grower row examples width)
    (all : Seen examples seen) {feature : Nat} (column : feature < width)
    : ∃ sorted : List (Nat × ε), sorted.Perm seen
      ∧ ordered row examples (seen.map Prod.fst) feature = .ok (sorted.map Prod.fst)
      ∧ grower.ordered (seen.map Prod.snd) feature
        = sorted.map fun entry => (grower.reading entry.2 feature, grower.target entry.2) := by
  refine ⟨seen.mergeSort fun p q =>
    Scalar.before (grower.reading p.2 feature) (grower.reading q.2 feature),
    List.mergeSort_perm _ _, ?_, ?_⟩
  · have keyed := within.mapM_reading_eq_ok all column fun place reading => (reading, place)
    rw [ordered, keyed]
    apply congrArg Except.ok
    rw [mergeSort_map fun _ => rfl, List.map_map]
    rfl
  · rw [Grower.ordered, List.map_map, mergeSort_map fun _ => rfl]
    rfl

/-- The neighbours are gone through like their readings and targets, by induction on the steps
that are left.
-/
theorem Within.scan_eq_ok (within : Within grower row examples width) (all : Seen examples seen)
    {feature : Nat} (column : feature < width) (moments : Moments α) {steps k : Nat}
    (left : steps + k + 1 = seen.length) (sum squares : α) (best : Option (Cut α))
    : scan grower row examples feature moments (seen.map Prod.fst) steps k sum squares best
      = .ok (Grower.scan feature moments k sum squares best
          ((seen.map fun entry =>
            (grower.reading entry.2 feature, grower.target entry.2)).drop k)) := by
  induction steps generalizing k sum squares best with
  | zero =>
      rw [← List.map_drop, List.drop_eq_getElem_cons (by omega), List.drop_of_length_le (by omega)]
      rfl
  | succ steps ih =>
      have here := all seen[k] (List.getElem_mem (by omega))
      have next := all seen[k + 1] (List.getElem_mem (by omega))
      rw [scan, List.getElem?_map, List.getElem?_map, List.getElem?_eq_getElem (by omega : k < _),
        List.getElem?_eq_getElem (by omega : k + 1 < _)]
      simp only [found, here, within.reading_eq_ok here column, Option.map_some, bind, Except.bind,
        within.reading_eq_ok next column]
      rw [ih (by omega), ← List.map_drop, ← List.map_drop,
        List.drop_eq_getElem_cons (i := k) (by omega),
        List.drop_eq_getElem_cons (i := k + 1) (by omega)]
      rfl

theorem foldlM_eq_ok_foldl {β γ : Type} {f : γ → β → Checked γ} {g : γ → β → γ} {xs : List β}
    (each : ∀ x ∈ xs, ∀ c, f c x = .ok (g c x)) (start : γ)
    : xs.foldlM f start = .ok (xs.foldl g start) := by
  induction xs generalizing start with
  | nil => rfl
  | cons x rest ih =>
      obtain ⟨first, others⟩ := List.forall_mem_cons.mp each
      rw [List.foldlM_cons, first, List.foldl_cons]
      exact ih others _

/-- The best cut of some examples is found at their places. -/
theorem Within.bestCut?_eq_ok (within : Within grower row examples width)
    (all : Seen examples seen) (filled : seen ≠ []) {features : List Nat}
    (columns : ∀ feature ∈ features, feature < width)
    : bestCut? grower row examples (seen.map Prod.fst) features
      = .ok (grower.bestCut? (seen.map Prod.snd) features) := by
  have positive : 0 < seen.length := List.length_pos_iff.mpr filled
  rw [bestCut?, all.pick_eq_ok]
  refine congrArg (Except.map (Option.filter _)) (foldlM_eq_ok_foldl ?_ none)
  intro feature member best
  have column := columns feature member
  obtain ⟨sorted, order, places, entries⟩ := within.ordered_eq_ok all column
  have count : neighbours (sorted.map Prod.fst) = .ok (sorted.length - 1) := by
    have notEmpty : (sorted.map Prod.fst).isEmpty = false := by
      rw [List.isEmpty_map, List.isEmpty_eq_false_iff]
      rintro rfl
      exact filled order.symm.eq_nil
    rw [neighbours, notEmpty, List.length_map]
    rfl
  have length := order.length_eq
  simp only [places, count, bind, Except.bind]
  rw [within.scan_eq_ok (all.of_subset order.subset) column _ (by omega), List.drop_zero, entries]

/-- The best cut when one more reading is passed is the one before or of the column. -/
theorem feature_of_consider {feature : Nat} {all : Moments α} {passed : Nat} {sum squares : α}
    {best : Option (Cut α)} {a b : α} {cut : Cut α}
    (found : Grower.consider feature all passed sum squares best a b = some cut)
    : best = some cut ∨ cut.feature = feature := by
  unfold Grower.consider at found
  split at found
  · exact .inl found
  · split at found
    · cases found
      exact .inr rfl
    · dsimp only at found
      split at found
      · cases found
        exact .inr rfl
      · exact .inl found

theorem feature_of_scan {feature : Nat} {all : Moments α} {passed : Nat} {sum squares : α}
    {best : Option (Cut α)} {entries : List (α × α)} {cut : Cut α}
    (found : Grower.scan feature all passed sum squares best entries = some cut)
    : best = some cut ∨ cut.feature = feature := by
  fun_induction Grower.scan feature all passed sum squares best entries with
  | case1 passed sum squares best a y b z rest next later sq ih =>
      rcases ih found with kept | here
      · exact feature_of_consider kept
      · exact .inr here
  | case2 => exact .inl found

/-- A best cut is one of a column that was searched, by induction on the columns. -/
theorem feature_mem_of_bestCut? {shown : List ε} {features : List Nat} {cut : Cut α}
    (best : grower.bestCut? shown features = some cut)
    : cut.feature ∈ features := by
  have searched : ∀ (moments : Moments α) (features : List Nat) (start : Option (Cut α)),
      features.foldl (fun best feature =>
        Grower.scan feature moments 0 Scalar.zero Scalar.zero best
          (grower.ordered shown feature)) start = some cut
      → start = some cut ∨ cut.feature ∈ features := by
    intro moments features
    induction features with
    | nil => exact fun start found => .inl found
    | cons feature rest ih =>
        intro start found
        rcases ih _ found with first | later
        · rcases feature_of_scan first with kept | here
          · exact .inl kept
          · exact .inr (here ▸ List.mem_cons_self)
        · exact .inr (List.mem_cons_of_mem feature later)
  exact (searched _ features none (Option.filter_eq_some_iff.mp best).1).resolve_left nofun

/-- The places are divided like their examples. -/
theorem Within.divide_eq_ok (within : Within grower row examples width)
    (all : Seen examples seen) {cut : Cut α} (column : cut.feature < width)
    : divide row examples cut (seen.map Prod.fst)
      = .ok ((seen.filter fun entry => grower.goesLeft cut entry.2).map Prod.fst,
        (seen.filter fun entry => !grower.goesLeft cut entry.2).map Prod.fst) := by
  have sides := within.mapM_reading_eq_ok all column fun place reading =>
    (place, Scalar.le reading cut.threshold)
  rw [divide, sides]
  simp only [bind, Except.bind, List.filter_map, List.map_map, Function.comp_def]
  rfl

/-- Main statement: where columns are drawn below the width of the rows, a tree is grown without
an access out of range, by induction on the questions that are left.
-/
theorem Within.follows_grow (within : Within grower row examples width)
    {columns : CheckedDraw (List Nat)} (follows : Follows columns grower.columns)
    (below : grower.columns.Always fun features => ∀ feature ∈ features, feature < width)
    (questions : Nat) (all : Seen examples seen)
    : Follows (grow grower row examples columns questions (seen.map Prod.fst))
        (grower.grow questions (seen.map Prod.snd)) := by
  induction questions generalizing seen with
  | zero => exact .of_ok all.pick_eq_ok (follows_pure _)
  | succ questions ih =>
      refine .of_ok all.pick_eq_ok ?_
      rw [Grower.grow, List.length_map, List.length_map]
      refine .ite (fun _ => follows_pure _) fun large => ?_
      have filled : seen ≠ [] := by
        rintro rfl
        have splits := within.splits
        simp [splits] at large
      refine follows.bind below fun features inWidth => ?_
      refine .of_ok (within.bestCut?_eq_ok all filled inWidth) ?_
      cases best : grower.bestCut? (seen.map Prod.snd) features with
      | none => exact follows_pure _
      | some cut =>
          have column := inWidth cut.feature (feature_mem_of_bestCut? best)
          refine .of_ok (within.divide_eq_ok all column) ?_
          have left := ih (all.filter fun entry => grower.goesLeft cut entry.2)
          have right := ih (all.filter fun entry => !grower.goesLeft cut entry.2)
          simp only [List.filter_map, List.isEmpty_map, Function.comp_def]
          refine .ite (fun _ => follows_pure _) fun _ => ?_
          exact left.bind (Draw.always_true _) fun onLeft _ =>
            right.bind (Draw.always_true _) fun onRight _ => follows_pure _

end RangeTuner.Learning.Checked
