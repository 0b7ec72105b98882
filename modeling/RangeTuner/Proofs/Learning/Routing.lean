import Mathlib.Data.List.Basic
import RangeTuner.Proofs.Learning.CheckedTrees

/-! How a tree sends rows to its leaves. Growing divides a list of examples among the leaves, and
evaluating asks the questions that growing divided them by. Main statement: on places in a matrix
whose rows have one width, a tree is grown within its questions, its leaves are made of lists that
divide the places among them, and a row is sent to the leaf that was made of the list with its
place.
-/

namespace RangeTuner.Learning.Grower

variable {ε α : Type} [Scalar α]

-----------------------------------------------------------------------------------------
-- What growing can come to
-----------------------------------------------------------------------------------------

/-- Grows a tree and notes, from left to right, the lists that its leaves are made of. -/
def growNoted (grower : Grower ε α)
    : (questions : Nat) → List ε → Draw (Tree α × List (List ε))
  | 0, examples => return (.leaf (grower.leaf examples), [examples])
  | questions + 1, examples => do
      let targets := Moments.ofList (examples.map grower.target)
      if examples.length < grower.minSplit || Scalar.lt targets.error margin then
        return (.leaf (grower.leaf examples), [examples])
      else
        match grower.bestCut? examples (← grower.columns) with
        | none => return (.leaf (grower.leaf examples), [examples])
        | some cut =>
            let left := examples.filter (grower.goesLeft cut)
            let right := examples.filter fun e => !grower.goesLeft cut e
            if left.isEmpty || right.isEmpty then
              return (.leaf (grower.leaf examples), [examples])
            else
              let onLeft ← grower.growNoted questions left
              let onRight ← grower.growNoted questions right
              return (.split cut.feature cut.threshold onLeft.1 onRight.1, onLeft.2 ++ onRight.2)

/-- Noting the lists changes neither the tree nor what is drawn for it, by induction on the
questions that are left.
-/
theorem map_fst_growNoted (grower : Grower ε α) (questions : Nat) (examples : List ε)
    : Prod.fst <$> grower.growNoted questions examples = grower.grow questions examples := by
  induction questions generalizing examples with
  | zero => rfl
  | succ questions ih =>
      rw [growNoted, grow]
      dsimp only
      split
      · rfl
      · rw [map_bind]
        refine bind_congr fun features => ?_
        cases grower.bestCut? examples features with
        | none => rfl
        | some cut =>
            dsimp only
            split
            · rfl
            · simp only [← ih, map_bind, bind_map_left, map_pure]

/-- A tree that can be grown on some examples within so many questions about columns below the
width, with the lists that its leaves are made of.
-/
inductive Grown (grower : Grower ε α) (width : Nat)
    : (questions : Nat) → List ε → Tree α → List (List ε) → Prop
  | leaf (questions examples)
    : Grown grower width questions examples (.leaf (grower.leaf examples)) [examples]
  | split {questions examples cut left right leftBags rightBags}
    (column : cut.feature < width)
    (someLeft : examples.filter (grower.goesLeft cut) ≠ [])
    (someRight : (examples.filter fun e => !grower.goesLeft cut e) ≠ [])
    (onLeft : Grown grower width questions (examples.filter (grower.goesLeft cut)) left leftBags)
    (onRight : Grown grower width questions (examples.filter fun e => !grower.goesLeft cut e)
      right rightBags)
    : Grown grower width (questions + 1) examples (.split cut.feature cut.threshold left right)
        (leftBags ++ rightBags)

variable {grower : Grower ε α} {width : Nat}

/-- Whatever is drawn, what is grown can be grown, by induction on the questions that are left. -/
theorem growNoted_always
    (below : grower.columns.Always fun features => ∀ feature ∈ features, feature < width)
    (questions : Nat) (examples : List ε)
    : (grower.growNoted questions examples).Always fun noted =>
        Grown grower width questions examples noted.1 noted.2 := by
  induction questions generalizing examples with
  | zero => exact Draw.always_pure (.leaf _ _)
  | succ questions ih =>
      rw [growNoted]
      dsimp only
      split
      · exact Draw.always_pure (.leaf _ _)
      · refine below.bind fun features inWidth => ?_
        split
        next => exact Draw.always_pure (.leaf _ _)
        next cut best =>
          split
          next => exact Draw.always_pure (.leaf _ _)
          next filled =>
            simp only [Bool.or_eq_true, List.isEmpty_iff, not_or] at filled
            have column := inWidth cut.feature (Checked.feature_mem_of_bestCut? best)
            exact (ih _).bind fun left onLeft => (ih _).bind fun right onRight =>
              Draw.always_pure (.split column filled.1 filled.2 onLeft onRight)

-----------------------------------------------------------------------------------------
-- Trees and lists
-----------------------------------------------------------------------------------------

namespace Grown

variable {questions : Nat} {examples : List ε} {tree : Tree α} {bags : List (List ε)}

/-- A tree is no deeper than its questions. -/
theorem depth_le (grown : Grown grower width questions examples tree bags)
    : tree.depth ≤ questions := by
  induction grown with
  | leaf questions examples => exact Nat.zero_le _
  | split column someLeft someRight onLeft onRight left right =>
      rw [Tree.depth]
      omega

/-- The lists put together are the examples in some order. -/
theorem flatten_perm (grown : Grown grower width questions examples tree bags)
    : bags.flatten.Perm examples := by
  induction grown with
  | leaf questions examples => simp
  | @split questions examples cut _ _ _ _ column someLeft someRight onLeft onRight left right =>
      rw [List.flatten_append]
      exact (left.append right).trans (List.filter_append_perm (grower.goesLeft cut) examples)

/-- A list in the bags holds examples only. -/
theorem mem_of_mem (grown : Grown grower width questions examples tree bags) {bag : List ε}
    (listed : bag ∈ bags) {e : ε} (member : e ∈ bag)
    : e ∈ examples :=
  grown.flatten_perm.subset (List.mem_flatten.mpr ⟨bag, listed, member⟩)

/-- No leaf is made of nothing. -/
theorem ne_nil (grown : Grown grower width questions examples tree bags)
    (filled : examples ≠ [])
    : ∀ bag ∈ bags, bag ≠ [] := by
  induction grown with
  | leaf questions examples => simpa using filled
  | split column someLeft someRight onLeft onRight left right =>
      intro bag listed
      rcases List.mem_append.mp listed with onLeft | onRight
      · exact left someLeft bag onLeft
      · exact right someRight bag onRight

/-- No example is in two lists: those on the two sides of a cut answer its question differently. -/
theorem disjoint (grown : Grown grower width questions examples tree bags)
    : bags.Pairwise List.Disjoint := by
  induction grown with
  | leaf questions examples => exact List.pairwise_singleton _ _
  | split column someLeft someRight onLeft onRight left right =>
      refine List.pairwise_append.mpr ⟨left, right, ?_⟩
      intro leftBag leftListed rightBag rightListed e inLeft inRight
      have goes := (List.mem_filter.mp (onLeft.mem_of_mem leftListed inLeft)).2
      have stays := (List.mem_filter.mp (onRight.mem_of_mem rightListed inRight)).2
      simp [goes] at stays

/-- A row is sent to the leaf that was made of the list with its example. Readings and rows need
to agree on the columns that are asked for, so whatever readings there are, the same comparison
that divided the examples decides about the row.
-/
theorem eval_eq (grown : Grown grower width questions examples tree bags) {row : ε → List α}
    (reads : ∀ e ∈ examples, ∀ feature < width,
      (row e)[feature]? = some (grower.reading e feature))
    : ∀ bag ∈ bags, ∀ e ∈ bag, tree.eval (row e) = grower.leaf bag := by
  induction grown with
  | leaf questions examples => simp [Tree.eval]
  | @split questions examples cut _ _ _ _ column someLeft someRight onLeft onRight left right =>
      intro bag listed e member
      have answer : ∀ e ∈ examples,
          Scalar.le ((row e).getD cut.feature Scalar.zero) cut.threshold
            = grower.goesLeft cut e := by
        intro e member
        rw [List.getD_eq_getElem?_getD, reads e member cut.feature column]
        rfl
      rcases List.mem_append.mp listed with inLeft | inRight
      · obtain ⟨known, goes⟩ := List.mem_filter.mp (onLeft.mem_of_mem inLeft member)
        rw [Tree.eval, answer e known, if_pos goes]
        exact left (fun e member => reads e (List.mem_filter.mp member).1) bag inLeft e member
      · obtain ⟨known, stays⟩ := List.mem_filter.mp (onRight.mem_of_mem inRight member)
        rw [Tree.eval, answer e known, if_neg (by simpa using stays)]
        exact right (fun e member => reads e (List.mem_filter.mp member).1) bag inRight e member

end Grown

/-- Of disjoint lists, exactly one holds a member of them all together. -/
theorem filter_mem_eq_singleton [DecidableEq ε] {bags : List (List ε)}
    (apart : bags.Pairwise List.Disjoint) {bag : List ε} (listed : bag ∈ bags) {e : ε}
    (member : e ∈ bag)
    : bags.filter (e ∈ ·) = [bag] := by
  induction bags with
  | nil => cases listed
  | cons first rest ih =>
      obtain ⟨fromFirst, apart⟩ := List.pairwise_cons.mp apart
      rcases List.mem_cons.mp listed with rfl | later
      · have nowhere : rest.filter (e ∈ ·) = [] := by
          refine List.filter_eq_nil_iff.mpr fun other present => ?_
          simpa using fun inOther => fromFirst other present member inOther
        rw [List.filter_cons_of_pos (by simpa using member), nowhere]
      · have notFirst : e ∉ first := fun inFirst => fromFirst bag later inFirst member
        rw [List.filter_cons_of_neg (by simpa using notFirst), ih apart later]

-----------------------------------------------------------------------------------------
-- Places in a matrix
-----------------------------------------------------------------------------------------

/-- How trees are grown on places in a matrix with a target for each row. -/
def onPlaces (rows : Array (List α)) (targets : Array α) (minSplit : Nat)
    (columns : Draw (List Nat)) (leaf : List Nat → α)
    : Grower Nat α where
  reading place feature := (rows.getD place []).getD feature Scalar.zero
  target place := targets.getD place Scalar.zero
  minSplit := minSplit
  columns := columns
  leaf := leaf

/-- What a run grows can be grown, and it is the same with the lists noted. -/
theorem exists_grown (grower : Grower ε α)
    (below : grower.columns.Always fun features => ∀ feature ∈ features, feature < width)
    (questions : Nat) (examples : List ε) (g : Generator)
    : ∃ tree bags next,
        (grower.grow questions examples).run g = (tree, next)
        ∧ (grower.growNoted questions examples).run g = ((tree, bags), next)
        ∧ Grown grower width questions examples tree bags := by
  have same := congrArg (·.run g) (map_fst_growNoted grower questions examples)
  exact ⟨_, _, _, same.symm, rfl, growNoted_always below questions examples g⟩

section Places

variable {rows : Array (List α)}

omit [Scalar α] in
theorem getD_of_getElem? {place : Nat} {row : List α} (here : rows[place]? = some row)
    : rows.getD place [] = row := by
  rw [Array.getD_eq_getD_getElem?, here, Option.getD_some]

omit [Scalar α] in
/-- Every place has a row of the width. -/
theorem length_getD (rectangular : ∀ row ∈ rows, row.length = width) {place : Nat}
    (within : place < rows.size)
    : (rows.getD place []).length = width := by
  rw [getD_of_getElem? (Array.getElem?_eq_getElem within)]
  exact rectangular _ (Array.getElem_mem within)

/-- The rows at places are read within their width. -/
theorem within_onPlaces (rectangular : ∀ row ∈ rows, row.length = width) (targets : Array α)
    {minSplit : Nat} (splits : 2 ≤ minSplit) (columns : Draw (List Nat)) (leaf : List Nat → α)
    : Checked.Within (onPlaces rows targets minSplit columns leaf) (rows.getD · [])
        (Array.range rows.size) width := by
  refine ⟨fun _ _ => rfl, fun place e here => ?_, Nat.lt_of_lt_of_le Nat.zero_lt_two splits⟩
  obtain ⟨within, rfl⟩ : ∃ _ : place < rows.size, place = e := by
    simpa [Array.getElem?_eq_some_iff] using here
  exact length_getD rectangular within

/-- Places in a matrix are examples of themselves, so trees are grown on them in range. -/
theorem checked_grow_onPlaces (rectangular : ∀ row ∈ rows, row.length = width)
    (targets : Array α) {minSplit : Nat} (splits : 2 ≤ minSplit) {columns : Draw (List Nat)}
    (below : columns.Always fun features => ∀ feature ∈ features, feature < width)
    (leaf : List Nat → α) (questions : Nat) {places : List Nat}
    (within : ∀ place ∈ places, place < rows.size)
    : Checked.Follows
        (Checked.grow (onPlaces rows targets minSplit columns leaf) (rows.getD · [])
          (Array.range rows.size) (Checked.ofDraw columns) questions places)
        ((onPlaces rows targets minSplit columns leaf).grow questions places) := by
  have seen : Checked.Seen (Array.range rows.size)
      (places.map fun place => (place, place)) := by
    refine List.forall_mem_map.mpr fun place member => ?_
    simp [within place member]
  have grows := (within_onPlaces rectangular targets splits columns leaf).follows_grow
    (Checked.follows_ofDraw columns) below questions seen
  simpa only [List.map_map, Function.comp_def, List.map_id'] using grows

end Places

/-- Main statement: whatever the scalars, the targets, the leaf rule and the columns that are
drawn for each split, a tree is grown on some places of a matrix with every access in range and no
deeper than its questions. The lists that its leaves are made of are not empty and hold the places
between them, each as often as it was given. Every place is in one of these lists, and its row is
sent to the leaf that was made of this list.
-/
theorem rows_reach_leaves_of_their_places (rows : Array (List α)) (targets : Array α)
    (minSplit : Nat) (columns : Draw (List Nat)) (leaf : List Nat → α) (width : Nat)
    (rectangular : ∀ row ∈ rows, row.length = width)
    (below : columns.Always fun features => ∀ feature ∈ features, feature < width)
    (splits : 2 ≤ minSplit) (questions : Nat) (places : List Nat) (filled : places ≠ [])
    (within : ∀ place ∈ places, place < rows.size) (g : Generator)
    : ∃ tree bags next,
        ((onPlaces rows targets minSplit columns leaf).grow questions places).run g
          = (tree, next)
        ∧ ((onPlaces rows targets minSplit columns leaf).growNoted questions places).run g
          = ((tree, bags), next)
        ∧ (Checked.grow (onPlaces rows targets minSplit columns leaf) (rows.getD · [])
            (Array.range rows.size) (Checked.ofDraw columns) questions places).run g
          = .ok (tree, next)
        ∧ tree.depth ≤ questions
        ∧ (∀ bag ∈ bags, bag ≠ [])
        ∧ bags.flatten.Perm places
        ∧ ∀ place row, place ∈ places → rows[place]? = some row
          → ∃ bag, bags.filter (place ∈ ·) = [bag] ∧ tree.eval row = leaf bag := by
  let grower : Grower Nat α := onPlaces rows targets minSplit columns leaf
  obtain ⟨tree, bags, next, plain, noted, grown⟩ :=
    grower.exists_grown below questions places g
  have checked := checked_grow_onPlaces rectangular targets splits below leaf questions within g
  have reads : ∀ place ∈ places, ∀ feature < width,
      (rows.getD place [])[feature]? = some (grower.reading place feature) := by
    intro place member feature column
    have inRow := length_getD rectangular (within place member) ▸ column
    simp only [grower, onPlaces, List.getD_eq_getElem?_getD, List.getElem?_eq_getElem inRow,
      Option.getD_some]
  refine ⟨tree, bags, next, plain, noted, checked.trans (congrArg Except.ok plain),
    grown.depth_le, grown.ne_nil filled, grown.flatten_perm, ?_⟩
  intro place row member here
  obtain ⟨bag, listed, inBag⟩ := List.mem_flatten.mp (grown.flatten_perm.mem_iff.mpr member)
  refine ⟨bag, filter_mem_eq_singleton grown.disjoint listed inBag, ?_⟩
  rw [← getD_of_getElem? here]
  exact grown.eval_eq reads bag listed place inBag

/-- Rows with two equal readings in one column and one that is no number in the other. -/
def tiedRows : Array (List Float) :=
  #[[0.0, 5.0], [1.0, 0.0 / 0.0], [0.0, 2.0]]

/-- Grows trees on these rows, searching the columns in a drawn order. -/
def tiedGrower : Grower Nat Float :=
  onPlaces tiedRows #[0.0, 1.0, 0.0] 2 (do return (← Draw.shuffle (List.range 2)).take 2)
    fun places => places.length.toFloat

/-- On places given twice, the row whose reading is no number reaches the leaf that was made of
its place.
-/
theorem tiedRows_reach_leaves
    : ∃ tree bags next,
        (tiedGrower.grow 3 [2, 1, 0, 1, 2]).run (.ofSeed 1) = (tree, next)
        ∧ (tiedGrower.growNoted 3 [2, 1, 0, 1, 2]).run (.ofSeed 1) = ((tree, bags), next)
        ∧ tree.depth ≤ 3
        ∧ bags.flatten.Perm [2, 1, 0, 1, 2]
        ∧ ∃ bag, bags.filter (1 ∈ ·) = [bag]
          ∧ tree.eval [1.0, 0.0 / 0.0] = bag.length.toFloat := by
  obtain ⟨tree, bags, next, plain, noted, -, depth, -, all, sent⟩ :=
    rows_reach_leaves_of_their_places tiedRows #[0.0, 1.0, 0.0] 2 tiedGrower.columns
      tiedGrower.leaf 2
      (by simp [tiedRows])
      (fun g feature member => List.mem_range.mp (Draw.always_take_shuffle _ _ g feature member))
      (Nat.le_refl 2) 3 [2, 1, 0, 1, 2] (by decide) (by simp [tiedRows]) (.ofSeed 1)
  exact ⟨tree, bags, next, plain, noted, depth, all, sent 1 _ (by decide) rfl⟩

end RangeTuner.Learning.Grower
