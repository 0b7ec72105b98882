/-! Reproducible random draws. A generator is a 64-bit state that each draw steps; a drawing
takes a generator and hands it on. Streams of one seed start in states of their own.
-/

namespace RangeTuner.Learning

/-- A generator of random words. -/
structure Generator where
  state : UInt64
deriving DecidableEq, Repr

namespace Generator

/-- The odd constant that streams are set apart with; it also stands in for the state zero, from
which no step leads away.
-/
def spread : UInt64 :=
  0x9e3779b97f4a7c15

/-- The generator of a seed. -/
def ofSeed (seed : UInt64) : Generator :=
  ⟨if seed = 0 then spread else seed⟩

/-- The generator of one stream of a seed. -/
def ofStream (seed stream : UInt64) : Generator :=
  ofSeed (seed ^^^ ((stream + 1) * spread))

/-- The state after one draw: three shifts, each mixed in by an exclusive or. -/
def stepState (x : UInt64) : UInt64 :=
  let x := x ^^^ (x >>> 12)
  let x := x ^^^ (x <<< 25)
  x ^^^ (x >>> 27)

/-- The generator after one draw. -/
def step (g : Generator) : Generator :=
  ⟨stepState g.state⟩

/-- The word that is drawn in a state. -/
def output (g : Generator) : UInt64 :=
  g.state * 0x2545f4914f6cdd1d

end Generator

/-- A value drawn from a generator. -/
abbrev Draw (α : Type) := StateM Generator α

namespace Draw

/-- Sixty-four random bits. -/
def word : Draw UInt64 := do
  modify Generator.step
  return (← get).output

/-- A number from zero up to, and without, one. -/
def unit : Draw Float := do
  return ((← word) >>> 11).toFloat / 9007199254740992.0

/-- A whole number below a bound; zero, without a draw, if there is none. -/
def below (bound : Nat) : Draw Nat := do
  if bound = 0 then return 0
  else return (← word).toNat % bound

/-- A whole number from `low` up to, and without, `high`; `low`, without a draw, if there is
none.
-/
def between (low high : Int) : Draw Int := do
  if high ≤ low then return low
  else return low + (← word).toNat % (high - low)

/-- A number between two bounds. -/
def uniform (low high : Float) : Draw Float := do
  return low + (high - low) * (← unit)

/-- True with a probability. -/
def bernoulli (probability : Float) : Draw Bool := do
  return (← unit) < probability

/-- Swaps each of the first items, from the one at `last` down to the second, with one drawn
from those before it and itself.
-/
def shuffleFrom {α : Type} : Nat → Array α → Draw (Array α)
  | 0, items => return items
  | last + 1, items => do
      let other ← below (last + 2)
      shuffleFrom last (items.swapIfInBounds (last + 1) other)

/-- A random order of a list. -/
def shuffle {α : Type} (items : List α) : Draw (List α) := do
  return (← shuffleFrom (items.length - 1) items.toArray).toList

/-- A list of draws. -/
def replicate {α : Type} (count : Nat) (draw : Draw α) : Draw (List α) :=
  (List.range count).mapM fun _ => draw

end Draw

end RangeTuner.Learning
