import RangeTuner.Exchange.Settings
import RangeTuner.Learning.Learner
import RangeTuner.Learning.Standardizer

/-! The JSON forms of learners. Trees are nested nodes, each tagged as a leaf or a split; a
learner is tagged with its kind and holds the settings that it was trained with.
-/

namespace RangeTuner.Learning

open RangeTuner.Json

namespace Standardizer

/-- The names of the fields. -/
def fields : List String :=
  ["mean", "scale"]

/-- All fields in order. -/
def toJson (s : Standardizer) : Json :=
  .object [
    ("mean", .ofList .ofFloat s.mean),
    ("scale", .ofList .ofFloat s.scale)]

/-- The standardizer of a structure. -/
def ofJson? (j : Json) : Option Standardizer := do
  let r ← record? .strict fields j
  return {
    mean := ← r.require "mean" (list? float?)
    scale := ← r.require "scale" (list? float?) }

end Standardizer

namespace Tree

/-- The name of the tag. -/
def tag : String := "node"

/-- The tag of leaves. -/
def leafTag : String := "leaf"

/-- The tag of inner nodes. -/
def splitTag : String := "split"

/-- The names of the fields of a leaf. -/
def leafFields : List String :=
  ["value"]

/-- The names of the fields of an inner node. -/
def splitFields : List String :=
  ["feature", "threshold", "left", "right"]

/-- The node with all nodes below it. -/
def toJson : Tree Float → Json
  | .leaf value => .object [(tag, .string leafTag), ("value", .ofFloat value)]
  | .split feature threshold left right => .object [
      (tag, .string splitTag),
      ("feature", .ofNat feature),
      ("threshold", .ofFloat threshold),
      ("left", left.toJson),
      ("right", right.toJson)]

/-- The tree of a node, when the trees among its parts are known by their names. -/
def ofParts? (kind : String) (parts : Json) (trees : List (String × Option (Tree Float)))
    : Option (Tree Float) :=
  let subtree (name : String) := (trees.lookup name).join
  if kind = leafTag then do
    let r ← record? .strict leafFields parts
    return .leaf (← r.require "value" float?)
  else if kind = splitTag then do
    let r ← record? .strict splitFields parts
    return .split
      (← r.require "feature" nat?) (← r.require "threshold" float?)
      (← subtree "left") (← subtree "right")
  else none

mutual

/-- The tree of a node inside a structure that is kept whole: its parts are read first. -/
def ofKept? : Json → Option (Tree Float)
  | .object members => do
      let trees := ofMembers members
      let (kind, parts) ← tagged? tag (keptTag? [leafTag, splitTag]) (.object members)
      ofParts? kind parts trees
  | .array items => do
      let trees := ofItems items
      let (kind, parts) ← tagged? tag (keptTag? [leafTag, splitTag]) (.array items)
      ofParts? kind parts (splitFields.zip (trees.drop 1))
  | _ => none

/-- The trees among the members of an object. -/
def ofMembers : List (String × Json) → List (String × Option (Tree Float))
  | [] => []
  | (name, item) :: rest => (name, ofKept? item) :: ofMembers rest

/-- The trees among the items of an array. -/
def ofItems : List Json → List (Option (Tree Float))
  | [] => []
  | item :: rest => ofKept? item :: ofItems rest

end

/-- The tree of a node, which has its kind's name as its tag. -/
def ofJson? (j : Json) : Option (Tree Float) := do
  let _ ← tagged? tag string? j
  ofKept? j

end Tree

namespace Forest

/-- The names of the fields. -/
def fields : List String :=
  ["params", "seed", "trees"]

/-- All fields in order. -/
def members (forest : Forest Float) : List (String × Json) := [
  ("params", forest.settings.toJson),
  ("seed", .ofWord forest.seed),
  ("trees", .ofList Tree.toJson forest.trees)]

/-- The forest of a structure. -/
def ofJson? (j : Json) : Option (Forest Float) := do
  let r ← record? .strict fields j
  return {
    settings := ← r.require "params" ForestSettings.ofJson?
    seed := ← r.require "seed" word?
    trees := ← r.require "trees" (list? Tree.ofKept?) }

end Forest

namespace Boosting

/-- The names of the fields. -/
def fields : List String :=
  ["params", "init", "trees"]

/-- All fields in order. -/
def members (boosting : Boosting) : List (String × Json) := [
  ("params", boosting.settings.toJson),
  ("init", .ofFloat boosting.base),
  ("trees", .ofList Tree.toJson boosting.trees)]

/-- The boosted trees of a structure. -/
def ofJson? (j : Json) : Option Boosting := do
  let r ← record? .strict fields j
  return {
    settings := ← r.require "params" BoostingSettings.ofJson?
    base := ← r.require "init" float?
    trees := ← r.require "trees" (list? Tree.ofKept?) }

end Boosting

namespace Margin

/-- The names of the fields. -/
def fields : List String :=
  ["params", "seed", "weights", "bias"]

/-- All fields in order. -/
def members (margin : Margin) : List (String × Json) := [
  ("params", margin.settings.toJson),
  ("seed", .ofWord margin.seed),
  ("weights", .ofList .ofFloat margin.weights),
  ("bias", .ofFloat margin.bias)]

/-- The linear margin of a structure. -/
def ofJson? (j : Json) : Option Margin := do
  let r ← record? .strict fields j
  return {
    settings := ← r.require "params" MarginSettings.ofJson?
    seed := ← r.require "seed" word?
    weights := ← r.require "weights" (list? float?)
    bias := ← r.require "bias" float? }

end Margin

namespace Learner

/-- The name of the tag. -/
def tag : String := "kind"

/-- The fields of what is learned. -/
def members : Learner → List (String × Json)
  | .forest f => f.members
  | .boosting b => b.members
  | .margin m => m.members

/-- The learner under the name of its kind. -/
def toJson (learner : Learner) : Json :=
  .object ((tag, .string learner.kind.name) :: learner.members)

/-- The learner of a kind. -/
def ofParts? (kind : String) (parts : Json) : Option Learner :=
  if kind = LearnerKind.forest.name then (Forest.ofJson? parts).map .forest
  else if kind = LearnerKind.boosting.name then (Boosting.ofJson? parts).map .boosting
  else if kind = LearnerKind.margin.name then (Margin.ofJson? parts).map .margin
  else none

/-- The learner of a tagged structure; everything in it has to be sound, used or not. -/
def ofJson? (j : Json) : Option Learner :=
  if j.isSound then do
    let (kind, parts) ← tagged? tag string? j
    ofParts? kind parts
  else none

end Learner

end RangeTuner.Learning
