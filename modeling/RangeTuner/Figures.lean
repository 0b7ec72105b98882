/-! Tables of named figures, in the order of their names. Facts and features are such tables.
Writing a figure is seen through `get?` alone: the written name has the new figure and every
other name keeps its own.
-/

namespace RangeTuner

/-- Named figures in ascending order of their names. -/
structure Figures where
  entries : List (String × Float)

namespace Figures

/-- No figures. -/
def empty : Figures :=
  ⟨[]⟩

/-- The figure of a name in a list of entries. -/
def find? (name : String) : List (String × Float) → Option Float
  | [] => none
  | (other, figure) :: rest => if other = name then some figure else find? name rest

/-- The figure of a name, if it has one. -/
def get? (t : Figures) (name : String) : Option Float :=
  find? name t.entries

/-- The figure of a name, zero if it has none. -/
def getOrZero (t : Figures) (name : String) : Float :=
  (t.get? name).getD 0.0

/-- The name has a figure. -/
def contains (t : Figures) (name : String) : Bool :=
  (t.get? name).isSome

/-- The entries with one written at its place. -/
def place (name : String) (figure : Float) : List (String × Float) → List (String × Float)
  | [] => [(name, figure)]
  | (other, old) :: rest =>
      if other = name then (name, figure) :: rest
      else if name < other then (name, figure) :: (other, old) :: rest
      else (other, old) :: place name figure rest

/-- The table with the figure of one name written. -/
def insert (t : Figures) (name : String) (figure : Float) : Figures :=
  ⟨place name figure t.entries⟩

/-- The number of names that have a figure. -/
def size (t : Figures) : Nat :=
  t.entries.length

/-- No name has a figure. -/
def isEmpty (t : Figures) : Bool :=
  t.entries.isEmpty

/-- Names and figures in ascending order of the names. -/
def toList (t : Figures) : List (String × Float) :=
  t.entries

/-- The table of a list of entries, the last of several with one name. -/
def ofList (entries : List (String × Float)) : Figures :=
  entries.foldl (fun t entry => t.insert entry.1 entry.2) empty

/-- Looking up after placing an entry, by induction on the entries. -/
theorem find?_place (name other : String) (figure : Float) (entries : List (String × Float))
    : find? other (place name figure entries)
      = if name = other then some figure else find? other entries := by
  induction entries with
  | nil => simp [place, find?]
  | cons entry rest ih =>
      obtain ⟨key, old⟩ := entry
      simp only [place]
      split
      · next same =>
          subst same
          simp only [find?]
          split <;> rfl
      · split
        · simp only [find?]
        · simp only [find?, ih]
          by_cases h : key = other
          · simp_all
            intro same
            exact absurd same.symm (by assumption)
          · simp [h]

/-- The written name has the new figure and the others keep theirs. -/
theorem get?_insert (t : Figures) (name other : String) (figure : Float)
    : (t.insert name figure).get? other = if name = other then some figure else t.get? other :=
  find?_place name other figure t.entries

end Figures

end RangeTuner
