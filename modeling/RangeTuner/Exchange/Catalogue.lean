import RangeTuner.Figures
import RangeTuner.Gate
import RangeTuner.Json.Record

/-! The JSON forms of what is kept per optimization and per name: objects with a member for each.
-/

namespace RangeTuner

/-- An optimization is written as its identifier. -/
def Optimization.toJson (optimization : Optimization) : Json :=
  .string optimization.id

/-- An optimization is read from its identifier. -/
def Optimization.ofJson? : Json → Option Optimization :=
  Json.choice? ofId?

/-- Values per optimization are the members of an object. -/
def PerOptimization.toJson {α : Type} (item : α → Json) (t : PerOptimization α) : Json :=
  .object (t.toList.map fun (optimization, a) => (optimization.id, item a))

/-- Every member of the object has to name an optimization; the last of several counts. -/
def PerOptimization.ofJson? {α : Type} (item : Json → Option α) (j : Json)
    : Option (PerOptimization α) := do
  let entries ← (← j.members?).mapM fun (name, j) => do
    return (← Optimization.ofId? name, ← item j)
  return .ofList entries

/-- Named figures are the members of an object. -/
def Figures.toJson (figures : Figures) : Json :=
  .object (figures.toList.map fun (name, figure) => (name, .ofFloat figure))

/-- A verdict is written as its name. -/
def Verdict.toJson (verdict : Verdict) : Json :=
  .string verdict.name

/-- The verdict of a name. -/
def Verdict.ofName? (name : String) : Option Verdict :=
  all.find? fun verdict => verdict.name = name

/-- A verdict is read from its name. -/
def Verdict.ofJson? : Json → Option Verdict :=
  Json.choice? ofName?

/-- A verdict inside a structure that is kept whole is read from its name. -/
def Verdict.ofKept? : Json → Option Verdict :=
  Json.keptChoice? ofName?

end RangeTuner
