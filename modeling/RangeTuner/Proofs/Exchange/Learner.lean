import RangeTuner.Exchange.Learner
import RangeTuner.Proofs.Exchange.Settings

/-! The JSON forms of learners are read back, trees of any shape among them. A form is as deep as
its deepest tree and three levels more.
-/

namespace RangeTuner.Learning

open RangeTuner.Json

/-- Shifts and divisors are exact. -/
structure Standardizer.Held (s : Standardizer) : Prop where
  mean : ∀ x ∈ s.mean, Exact x
  scale : ∀ x ∈ s.scale, Exact x

theorem Standardizer.Held.keeps {s : Standardizer} (held : s.Held)
    : Keeps toJson ofJson? s := by
  have mean := Keeps.list fun x listed => (held.mean x listed).keeps
  have scale := Keeps.list fun x listed => (held.scale x listed).keeps
  constructor
  · exact proper_object_iff.mpr (by simp [mean.proper, scale.proper])
  · rw [toJson, ofJson?, record?_object]
    · simp only [Option.bind_eq_bind, Option.bind_some]
      rw [mean.require "mean" rfl, scale.require "scale" rfl]
      rfl
    · rfl
    · decide

-----------------------------------------------------------------------------------------
-- Trees
-----------------------------------------------------------------------------------------

namespace Tree

/-- Values and thresholds are exact, and columns are words, in all nodes. -/
def Held : Tree Float → Prop
  | .leaf value => Exact value
  | .split feature threshold left right =>
      IsWord feature ∧ Exact threshold ∧ left.Held ∧ right.Held

instance decidableHeld : (tree : Tree Float) → Decidable tree.Held
  | .leaf value => inferInstanceAs (Decidable (Exact value))
  | .split _ _ left right =>
      have := decidableHeld left
      have := decidableHeld right
      inferInstanceAs (Decidable (_ ∧ _ ∧ _ ∧ _))

/-- A leaf is read from its tag and its value. -/
theorem ofParts?_leaf {value : Float} (exact : Exact value)
    (trees : List (String × Option (Tree Float)))
    : ofParts? leafTag (.object [("value", .ofFloat value)]) trees = some (.leaf value) := by
  rw [ofParts?, if_pos rfl, record?_object]
  · simp only [Option.bind_eq_bind, Option.bind_some]
    rw [exact.keeps.require "value" rfl]
    rfl
  · rfl
  · decide

/-- An inner node is read from its tag, its question and the trees below it. -/
theorem ofParts?_split {feature : Nat} {threshold : Float} (word : IsWord feature)
    (exact : Exact threshold) {left right : Tree Float} {l r : Json}
    {trees : List (String × Option (Tree Float))} (onLeft : trees.lookup "left" = some (some left))
    (onRight : trees.lookup "right" = some (some right))
    : ofParts? splitTag
        (.object [("feature", .ofNat feature), ("threshold", .ofFloat threshold), ("left", l),
          ("right", r)])
        trees
      = some (.split feature threshold left right) := by
  rw [ofParts?, if_neg (by decide), if_pos rfl, record?_object]
  · simp only [Option.bind_eq_bind, Option.bind_some]
    rw [(keeps_ofNat word).require "feature" rfl, exact.keeps.require "threshold" rfl, onLeft,
      onRight]
    rfl
  · rfl
  · decide

/-- A tree is read back from its form, by induction on the tree. -/
theorem Held.keeps {tree : Tree Float} (held : tree.Held)
    : Keeps toJson ofKept? tree := by
  induction tree with
  | leaf value =>
      have exact : Exact value := held
      constructor
      · exact proper_object_iff.mpr (by simp [Proper, exact.keeps.proper])
      · exact ofParts?_leaf exact (ofMembers [(tag, .string leafTag), ("value", .ofFloat value)])
  | split feature threshold left right onLeft onRight =>
      obtain ⟨word, exact, heldLeft, heldRight⟩ := held
      have left := onLeft heldLeft
      have right := onRight heldRight
      constructor
      · exact proper_object_iff.mpr (by
          simp [Proper, (keeps_ofNat word).proper, exact.keeps.proper, left.proper, right.proper])
      · exact ofParts?_split word exact (congrArg some left.read) (congrArg some right.read)

/-- The form of a tree is one level deeper than the tree. -/
theorem depth_toJson (tree : Tree Float)
    : tree.toJson.depth = tree.depth + 1 := by
  induction tree with
  | leaf value => simp [toJson, Json.depth, depthOfMembers, depth]
  | split feature threshold left right onLeft onRight =>
      simp [toJson, Json.depth, depthOfMembers, onLeft, onRight, depth]
      omega

end Tree

-----------------------------------------------------------------------------------------
-- Learners
-----------------------------------------------------------------------------------------

/-- Settings and all trees are held. -/
structure Forest.Held (forest : Forest Float) : Prop where
  settings : forest.settings.Held
  trees : ∀ tree ∈ forest.trees, tree.Held

theorem Forest.Held.keeps {forest : Forest Float} (held : forest.Held)
    : Keeps (fun forest => .object forest.members) ofJson? forest := by
  have settings := held.settings.keeps
  have seed := keeps_ofWord forest.seed
  have trees := Keeps.list fun tree listed => (held.trees tree listed).keeps
  constructor
  · exact proper_object_iff.mpr (by
      simp [members, settings.proper, seed.proper, trees.proper])
  · rw [members, ofJson?, record?_object]
    · simp only [Option.bind_eq_bind, Option.bind_some]
      rw [settings.require "params" rfl, seed.require "seed" rfl, trees.require "trees" rfl]
      rfl
    · rfl
    · decide

/-- Settings and all trees are held, and the base is exact. -/
structure Boosting.Held (boosting : Boosting) : Prop where
  settings : boosting.settings.Held
  base : Exact boosting.base
  trees : ∀ tree ∈ boosting.trees, tree.Held

theorem Boosting.Held.keeps {boosting : Boosting} (held : boosting.Held)
    : Keeps (fun boosting => .object boosting.members) ofJson? boosting := by
  have settings := held.settings.keeps
  have base := held.base.keeps
  have trees := Keeps.list fun tree listed => (held.trees tree listed).keeps
  constructor
  · exact proper_object_iff.mpr (by
      simp [members, settings.proper, base.proper, trees.proper])
  · rw [members, ofJson?, record?_object]
    · simp only [Option.bind_eq_bind, Option.bind_some]
      rw [settings.require "params" rfl, base.require "init" rfl, trees.require "trees" rfl]
      rfl
    · rfl
    · decide

/-- Settings are held, and weights and bias are exact. -/
structure Margin.Held (margin : Margin) : Prop where
  settings : margin.settings.Held
  weights : ∀ w ∈ margin.weights, Exact w
  bias : Exact margin.bias

theorem Margin.Held.keeps {margin : Margin} (held : margin.Held)
    : Keeps (fun margin => .object margin.members) ofJson? margin := by
  have settings := held.settings.keeps
  have seed := keeps_ofWord margin.seed
  have weights := Keeps.list fun w listed => (held.weights w listed).keeps
  have bias := held.bias.keeps
  constructor
  · exact proper_object_iff.mpr (by
      simp [members, settings.proper, seed.proper, weights.proper, bias.proper])
  · rw [members, ofJson?, record?_object]
    · simp only [Option.bind_eq_bind, Option.bind_some]
      rw [settings.require "params" rfl, seed.require "seed" rfl, weights.require "weights" rfl,
        bias.require "bias" rfl]
      rfl
    · rfl
    · decide

namespace Learner

/-- The trees that a learner asks. -/
def trees : Learner → List (Tree Float)
  | .forest f => f.trees
  | .boosting b => b.trees
  | .margin _ => []

/-- What is learned is held. -/
def Held : Learner → Prop
  | .forest f => f.Held
  | .boosting b => b.Held
  | .margin m => m.Held

/-- The parts of a learner are read back under the name of its kind. -/
theorem Held.keeps_members {learner : Learner} (held : learner.Held)
    : Keeps (fun learner => .object learner.members) (ofParts? learner.kind.name) learner := by
  cases learner with
  | forest f =>
      have forest : f.Held := held
      refine ⟨forest.keeps.proper, ?_⟩
      rw [ofParts?, kind, if_pos rfl]
      exact congrArg (Option.map _) forest.keeps.read
  | boosting b =>
      have boosting : b.Held := held
      refine ⟨boosting.keeps.proper, ?_⟩
      rw [ofParts?, kind, if_neg (by decide), if_pos rfl]
      exact congrArg (Option.map _) boosting.keeps.read
  | margin m =>
      have margin : m.Held := held
      refine ⟨margin.keeps.proper, ?_⟩
      rw [ofParts?, kind, if_neg (by decide), if_neg (by decide), if_pos rfl]
      exact congrArg (Option.map _) margin.keeps.read

/-- A learner of any kind is read back from its form. -/
theorem Held.keeps {learner : Learner} (held : learner.Held)
    : Keeps toJson ofJson? learner := by
  have parts := held.keeps_members
  have members : ∀ member ∈ learner.members, member.2.Proper := proper_object_iff.mp parts.proper
  have proper : learner.toJson.Proper :=
    proper_object_iff.mpr (List.forall_mem_cons.mpr ⟨trivial, members⟩)
  have fresh : tag ∉ learner.members.map Prod.fst := by
    cases learner <;> simp [tag, Learner.members, Forest.members, Boosting.members, Margin.members]
  have apart : tagged? tag string? learner.toJson
      = some (learner.kind.name, .object learner.members) := tagged?_object rfl fresh
  refine ⟨proper, ?_⟩
  rw [ofJson?, if_pos (isSound_of_proper _ proper), apart]
  exact parts.read

/-- The form of a learner is three levels deeper than its trees. -/
theorem depth_toJson_le {learner : Learner} {limit : Nat} (least : 2 ≤ limit)
    (shallow : ∀ tree ∈ learner.trees, tree.depth + 3 ≤ limit)
    : learner.toJson.depth ≤ limit := by
  obtain ⟨n, rfl⟩ : ∃ n, limit = n + 2 := ⟨limit - 2, by omega⟩
  have trees : (ofList Tree.toJson learner.trees).depth ≤ n + 1 := by
    apply depth_ofList_le_iff.mpr
    intro tree listed
    have bound := shallow tree listed
    rw [tree.depth_toJson]
    omega
  have list : ∀ xs, (ofList ofFloat xs).depth ≤ n + 1 :=
    fun xs => depth_ofList_le_iff.mpr (by simp)
  apply depth_object_le_iff.mpr
  cases learner with
  | forest f =>
      have trees : (ofList Tree.toJson f.trees).depth ≤ n + 1 := trees
      simp [members, Forest.members, Json.depth, depthOfMembers, ForestSettings.toJson, trees]
  | boosting b =>
      have trees : (ofList Tree.toJson b.trees).depth ≤ n + 1 := trees
      simp [members, Boosting.members, Json.depth, depthOfMembers, BoostingSettings.toJson, trees]
  | margin m =>
      simp [members, Margin.members, Json.depth, depthOfMembers, MarginSettings.toJson, list]

end Learner

end RangeTuner.Learning
