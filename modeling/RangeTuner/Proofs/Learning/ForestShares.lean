import Mathlib.Algebra.Order.BigOperators.Group.List
import Mathlib.Algebra.Order.Field.Basic
import Mathlib.Order.Interval.Set.Basic
import Mathlib.Tactic.Linarith
import RangeTuner.Proofs.Learning.CheckedFits
import RangeTuner.Proofs.Learning.Routing
import RangeTuner.Proofs.Learning.SquaredError

/-! What forests tell, in exact arithmetic. Leaves are made of some examples and hold the mean of
their labels, so what a tree tells lies between the least and the greatest label whatever row it is
asked about, and so does the mean of what the trees tell. Main statement: a fitted forest tells
probabilities, decides for what is more probable than not, and is certain where all labels agree.
-/

namespace RangeTuner.Learning

open Set (Icc)

variable {low high : ℚ}

/-- The mean of some numbers lies within the bounds of the numbers. -/
theorem mean_mem_Icc {xs : List ℚ} (filled : xs ≠ []) (within : ∀ x ∈ xs, x ∈ Icc low high)
    : xs.sum / xs.length ∈ Icc low high := by
  have positive : (0 : ℚ) < xs.length := Nat.cast_pos.mpr (List.length_pos_iff.mpr filled)
  have least := List.card_nsmul_le_sum xs low fun x member => (within x member).1
  have most := List.sum_le_card_nsmul xs high fun x member => (within x member).2
  rw [nsmul_eq_mul] at least most
  exact ⟨(le_div_iff₀ positive).mpr (by rwa [mul_comm]),
    (div_le_iff₀ positive).mpr (by rwa [mul_comm])⟩

namespace Decision

@[simp] theorem half_rat : (Scalar.ofDecimal 5 1 : ℚ) = 1 / 2 := by
  change ((5 : Nat) : ℚ) / 10 ^ 1 = 1 / 2
  norm_num

/-- A probability decides for what is over a half, as surely as the likelier side is probable. -/
theorem ofProbability_rat {p : ℚ} (unit : p ∈ Icc 0 1)
    : ofProbability p = ⟨decide (1 / 2 < p), max p (1 - p)⟩ := by
  have positive : ¬ max p (1 - p) < 0 := not_lt.mpr (le_max_of_le_left unit.1)
  have sure : ¬ 1 < max p (1 - p) := not_lt.mpr (max_le unit.2 (sub_le_self 1 unit.1))
  simp only [ofProbability, clampUnit, Scalar.lt_rat, Scalar.max_rat, Scalar.zero_rat,
    Scalar.one_rat, half_rat, positive, sure, decide_false, Bool.false_eq_true, if_false]

/-- The likelier side is at least as probable as not. -/
theorem likelier_mem_Icc {p : ℚ} (unit : p ∈ Icc 0 1)
    : max p (1 - p) ∈ Icc (1 / 2) 1 := by
  refine ⟨?_, max_le unit.2 (sub_le_self 1 unit.1)⟩
  rcases le_total (1 / 2) p with half | half
  · exact le_max_of_le_left half
  · exact le_max_of_le_right (by linarith)

end Decision

namespace Grower

variable {ε : Type} {grower : Grower ε ℚ} {width questions : Nat} {examples : List ε}
  {tree : Tree ℚ} {bags : List (List ε)}

/-- Whatever row a tree is asked about, it tells what one of its leaves holds. -/
theorem Grown.exists_eval_eq (grown : Grown grower width questions examples tree bags)
    (row : List ℚ)
    : ∃ bag ∈ bags, tree.eval row = grower.leaf bag := by
  induction grown with
  | leaf questions examples => exact ⟨examples, List.mem_singleton_self _, rfl⟩
  | split column someLeft someRight onLeft onRight left right =>
      rw [Tree.eval]
      split
      · obtain ⟨bag, listed, told⟩ := left
        exact ⟨bag, List.mem_append_left _ listed, told⟩
      · obtain ⟨bag, listed, told⟩ := right
        exact ⟨bag, List.mem_append_right _ listed, told⟩

end Grower

namespace Forest

/-- The label of each of these examples lies within bounds. -/
def LabelsWithin (low high : ℚ) (examples : List (Example ℚ)) : Prop :=
  ∀ e ∈ examples, Scalar.ofBool e.label ∈ Icc low high

/-- The share of labels lies within their bounds. -/
theorem share_mem_Icc {examples : List (Example ℚ)} (filled : examples ≠ [])
    (within : LabelsWithin low high examples)
    : share examples ∈ Icc low high := by
  have labels : ∀ x ∈ examples.map fun e => Scalar.ofBool e.label, x ∈ Icc low high :=
    List.forall_mem_map.mpr within
  have mean := mean_mem_Icc (by simpa using filled) labels
  rw [List.length_map] at mean
  rwa [share, if_neg (by simpa using filled), Scalar.sum_rat, Scalar.ofNat_rat]

/-- A tree that was grown on some examples tells no more and no less than their labels. -/
theorem eval_mem_Icc {settings : ForestSettings} {width questions : Nat}
    {examples : List (Example ℚ)} {tree : Tree ℚ} {bags : List (List (Example ℚ))}
    (grown : Grower.Grown (grower settings width) width questions examples tree bags)
    (filled : examples ≠ []) (within : LabelsWithin low high examples) (row : List ℚ)
    : tree.eval row ∈ Icc low high := by
  obtain ⟨bag, listed, told⟩ := grown.exists_eval_eq row
  rw [told]
  exact share_mem_Icc (grown.ne_nil filled bag listed)
    fun e member => within e (grown.mem_of_mem listed member)

/-- As many examples are drawn as there are, all of them from the given ones. -/
theorem always_bootstrap {examples : Array (Example ℚ)} (filled : 0 < examples.size)
    : (bootstrap examples).Always fun drawn =>
        drawn.length = examples.size ∧ ∀ e ∈ drawn, e ∈ examples := by
  refine ((Checked.always_below filled).replicate _).bind fun places drawn =>
    Draw.always_pure ⟨?_, fun e member => ?_⟩
  · rw [← drawn.1, List.length_filterMap_eq_countP, List.countP_eq_length]
    intro place member
    simp [drawn.2 place member]
  · obtain ⟨place, -, here⟩ := List.mem_filterMap.mp member
    exact Array.mem_of_getElem? here

/-- Whatever is drawn for a tree, it tells no more and no less than the labels. -/
theorem always_drawTree (settings : ForestSettings) (width : Nat)
    {examples : Array (Example ℚ)} (filled : 0 < examples.size)
    (within : LabelsWithin low high examples.toList)
    : (drawTree settings width examples).Always fun tree =>
        ∀ row, tree.eval row ∈ Icc low high := by
  refine (always_bootstrap filled).bind fun drawn ⟨count, members⟩ g row => ?_
  obtain ⟨tree, bags, next, grows, -, grown⟩ :=
    (grower settings width).exists_grown (Checked.always_columns settings width)
      settings.maxDepth drawn g
  rw [grows]
  refine eval_mem_Icc grown ?_ (fun e member => ?_) row
  · exact List.ne_nil_of_length_pos (count ▸ filled)
  · exact within e (Array.mem_toList_iff.mpr (members e member))

/-- So does every tree of a forest. -/
theorem mem_growTrees (settings : ForestSettings) (seed : UInt64) {examples : List (Example ℚ)}
    (filled : examples ≠ []) (within : LabelsWithin low high examples)
    : ∀ tree ∈ growTrees settings seed examples, ∀ row, tree.eval row ∈ Icc low high := by
  have positive : 0 < examples.toArray.size := by simpa [List.length_pos_iff] using filled
  refine List.forall_mem_map.mpr fun t _ => ?_
  exact always_drawTree settings _ positive within (.ofStream seed t.toUInt64)

/-- The probability lies within what the trees tell, if there are trees. -/
theorem probability_mem_Icc {forest : Forest ℚ} (grown : forest.trees ≠ []) {row : List ℚ}
    (within : ∀ tree ∈ forest.trees, tree.eval row ∈ Icc low high)
    : forest.probability row ∈ Icc low high := by
  have told : ∀ x ∈ forest.trees.map (Tree.eval row), x ∈ Icc low high :=
    List.forall_mem_map.mpr within
  have mean := mean_mem_Icc (by simpa using grown) told
  rw [List.length_map] at mean
  rwa [probability, if_neg (by simpa using grown), Scalar.sum_rat, Scalar.ofNat_rat]

/-- The examples of rows and labels have these labels. -/
theorem labelsWithin_zipWith {rows : List (List ℚ)} {labels : List Bool}
    (within : ∀ label ∈ labels, Scalar.ofBool label ∈ Icc low high)
    : LabelsWithin low high (rows.zipWith .mk labels) := by
  intro e member
  rw [← List.map_uncurry_zip_eq_zipWith] at member
  obtain ⟨⟨row, label⟩, both, rfl⟩ := List.mem_map.mp member
  exact within label (List.of_mem_zip both).2

/-- Zero and one are the least and the greatest label. -/
theorem ofBool_mem_Icc (label : Bool)
    : (Scalar.ofBool label : ℚ) ∈ Icc 0 1 := by
  cases label <;> simp [Scalar.ofBool]

/-- A forest without trees is undecided. -/
theorem probability_of_no_trees {forest : Forest ℚ} (none : forest.trees = []) (row : List ℚ)
    : forest.probability row = 1 / 2 := by
  rw [probability, none, List.isEmpty_nil, if_pos rfl, Decision.half_rat]

/-- A forest that was grown on some rows tells no more and no less than their labels. -/
theorem probability_of_grown {forest : Forest ℚ} {settings : ForestSettings} {seed : UInt64}
    {rows : List (List ℚ)} {labels : List Bool}
    (trees : forest.trees = growTrees settings seed (rows.zipWith .mk labels))
    (grown : settings.trees ≠ 0) (filled : rows ≠ []) (paired : rows.length = labels.length)
    (within : ∀ label ∈ labels, Scalar.ofBool label ∈ Icc low high) (row : List ℚ)
    : forest.probability row ∈ Icc low high := by
  have examples : rows.zipWith Example.mk labels ≠ [] := by
    apply List.ne_nil_of_length_pos
    rw [List.length_zipWith, ← paired, Nat.min_self]
    exact List.length_pos_iff.mpr filled
  refine probability_mem_Icc ?_ fun tree member => ?_
  · rw [trees]
    simpa [growTrees] using grown
  · exact mem_growTrees settings seed examples (labelsWithin_zipWith within) tree (trees ▸ member)
      row

/-- The decision of a certain probability is without a doubt. -/
theorem decide_of_certain {forest : Forest ℚ} {row : List ℚ} {label : Bool}
    (certain : forest.probability row = Scalar.ofBool label)
    : forest.decide row = ⟨label, 1⟩ := by
  rw [decide, certain, Decision.ofProbability_rat (ofBool_mem_Icc label)]
  cases label
  · norm_num [Scalar.ofBool]
  · norm_num [Scalar.ofBool]

/-- Main statement: a forest is fitted to some rows of one width and their labels, with every
access in range. Whatever row it is asked about, its probability lies between zero and one and the
confidence of its decision between a half and one, and it decides for what is more probable than
not, which is where its margin is positive. Where all labels are the same and the forest has trees,
it decides for that label without a doubt.
-/
theorem fitted_forest_tells_probabilities (settings : ForestSettings) (seed : UInt64)
    (before : List (Tree ℚ)) (rows : List (List ℚ)) (labels : List Bool) (width : Nat)
    (filled : rows ≠ []) (rectangular : ∀ row ∈ rows, row.length = width)
    (paired : rows.length = labels.length)
    : ∃ forest : Forest ℚ,
        fit ⟨settings, seed, before⟩ rows labels = .ok forest
        ∧ Checked.fitForest ⟨settings, seed, before⟩ rows labels = .ok forest
        ∧ forest.trees.length = settings.trees
        ∧ ∀ row,
          forest.probability row ∈ Icc 0 1
          ∧ (forest.decide row).confidence ∈ Icc (1 / 2) 1
          ∧ ((forest.decide row).apply = true ↔ 1 / 2 < forest.probability row)
          ∧ (1 / 2 < forest.probability row ↔ 0 < forest.margin row)
          ∧ ∀ label, (∀ other ∈ labels, other = label) → settings.trees ≠ 0
            → forest.decide row = ⟨label, 1⟩ := by
  let forest : Forest ℚ :=
    ⟨settings, seed, growTrees settings seed (rows.zipWith .mk labels)⟩
  have fitted : fit ⟨settings, seed, before⟩ rows labels = .ok forest := by
    rw [fit, Example.zip_eq_ok filled paired]
    rfl
  have checked : Checked.fitForest ⟨settings, seed, before⟩ rows labels = .ok forest := by
    rw [Checked.fitForest_eq _ _ rectangular, fitted]
    rfl
  refine ⟨forest, fitted, checked, by simp [forest, growTrees], fun row => ?_⟩
  have unit : forest.probability row ∈ Icc 0 1 := by
    by_cases grown : settings.trees = 0
    · rw [probability_of_no_trees (by simp [forest, growTrees, grown]) row]
      norm_num
    · exact probability_of_grown rfl grown filled paired (fun label _ => ofBool_mem_Icc label) row
  have decided : forest.decide row
      = ⟨Decidable.decide (1 / 2 < forest.probability row),
        max (forest.probability row) (1 - forest.probability row)⟩ :=
    Decision.ofProbability_rat unit
  refine ⟨unit, ?_, ?_, ?_, fun label same grown => decide_of_certain ?_⟩
  · rw [decided]
    exact Decision.likelier_mem_Icc unit
  · rw [decided, decide_eq_true_eq]
  · rw [margin, Decision.half_rat, sub_pos]
  · have agreed : ∀ other ∈ labels,
        (Scalar.ofBool other : ℚ) ∈ Icc (Scalar.ofBool label) (Scalar.ofBool label) := by
      intro other listed
      rw [same other listed]
      exact Set.left_mem_Icc.mpr le_rfl
    have certain : forest.probability row ∈ Icc (Scalar.ofBool label) (Scalar.ofBool label) :=
      probability_of_grown rfl grown filled paired agreed row
    exact le_antisymm certain.2 certain.1

/-- Forests of three trees on rows with the same labels and on rows with different ones, asked
about a row without columns and about one with more columns than they have seen.
-/
theorem fitted_forest_tells_probabilities_of_pairs
    : (∃ forest : Forest ℚ,
        fit ⟨⟨3, 8, 2⟩, 7, []⟩ [[0, 1], [4, 1]] [true, true] = .ok forest
        ∧ forest.decide [] = ⟨true, 1⟩)
      ∧ ∃ forest : Forest ℚ,
        fit ⟨⟨3, 8, 2⟩, 7, []⟩ [[0, 1], [4, 1]] [true, false] = .ok forest
        ∧ forest.trees.length = 3
        ∧ forest.probability [2, 0, 5] ∈ Icc 0 1
        ∧ (forest.decide [2, 0, 5]).confidence ∈ Icc (1 / 2) 1 := by
  constructor
  · obtain ⟨forest, fitted, -, -, tells⟩ :=
      fitted_forest_tells_probabilities ⟨3, 8, 2⟩ 7 [] [[0, 1], [4, 1]] [true, true] 2
        (by decide) (by decide) rfl
    exact ⟨forest, fitted, (tells []).2.2.2.2 true (by decide) (by decide)⟩
  · obtain ⟨forest, fitted, -, trees, tells⟩ :=
      fitted_forest_tells_probabilities ⟨3, 8, 2⟩ 7 [] [[0, 1], [4, 1]] [true, false] 2
        (by decide) (by decide) rfl
    exact ⟨forest, fitted, trees, (tells _).1, (tells _).2.1⟩

end Forest

end RangeTuner.Learning
