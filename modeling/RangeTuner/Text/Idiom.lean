import RangeTuner.Text.Scanner

/-! Idioms are recognized at places of a text, from left to right and without overlap. The text
is cut into pieces, hits and the characters between them; searching and replacing read the
pieces. Main statement: the pieces of a text, put together, are the text.
-/

namespace RangeTuner.Text

/-- What must stand before the place where an idiom begins. -/
inductive Opening where
  | anywhere
  | wordStart
  | lineStart
deriving DecidableEq, Repr

/-- Whether an idiom may begin after this character; there is none at the start of a text. -/
def Opening.admits : Opening → Option Char → Bool
  | .anywhere, _ => true
  | .wordStart, before => !before.any isWord
  | .lineStart, before => before.all (· == '\n')

/-- A surface idiom: where it may begin and how it is read. -/
structure Idiom (α : Type) where
  opening : Opening
  scan : Scanner α

/-- A part of a text: a character outside every hit, or a hit with what was found in it. -/
inductive Piece (α : Type) where
  | plain (c : Char)
  | hit (found : α) (lexeme : List Char)
deriving Repr

/-- The text of a piece. -/
def Piece.text {α : Type} : Piece α → List Char
  | .plain c => [c]
  | .hit _ lexeme => lexeme

/-- What a hit found. -/
def Piece.found? {α : Type} : Piece α → Option α
  | .plain _ => none
  | .hit found _ => some found

namespace Idiom

variable {α : Type}

/-- What the idiom finds at a place and how many characters, at least one, it covers. -/
def read? (idiom : Idiom α) (before : Option Char) (s : List Char)
    : Option (α × Nat) :=
  if idiom.opening.admits before then
    match idiom.scan s with
    | some (found, rest) =>
        if rest.length < s.length then some (found, s.length - rest.length) else none
    | none => none
  else none

/-- The pieces of a text after `covered` characters of it, which belong to the last hit. -/
def piecesFrom (idiom : Idiom α) : Nat → Option Char → List Char → List (Piece α)
  | _, _, [] => []
  | covered + 1, _, c :: s => piecesFrom idiom covered (some c) s
  | 0, before, c :: s =>
      match idiom.read? before (c :: s) with
      | some (found, length) =>
          .hit found ((c :: s).take length) :: piecesFrom idiom (length - 1) (some c) s
      | none => .plain c :: piecesFrom idiom 0 (some c) s

/-- The pieces of a text, leftmost hits first. -/
def pieces (idiom : Idiom α) (s : List Char) : List (Piece α) :=
  idiom.piecesFrom 0 none s

/-- What the hits of a text found, in order. -/
def findAll (idiom : Idiom α) (s : List Char) : List α :=
  (idiom.pieces s).filterMap Piece.found?

/-- The number of hits in a text. -/
def count (idiom : Idiom α) (s : List Char) : Nat :=
  (idiom.findAll s).length

/-- The idiom occurs in the text. -/
def occursIn (idiom : Idiom α) (s : List Char) : Bool :=
  !(idiom.findAll s).isEmpty

/-- The text with each hit replaced. -/
def replace (idiom : Idiom α) (new : α → List Char) (s : List Char) : List Char :=
  (idiom.pieces s).flatMap fun piece =>
    match piece with
    | .plain c => [c]
    | .hit found _ => new found

/-- A recognized idiom covers at least one character and no more than there are. -/
theorem read?_length {idiom : Idiom α} {before : Option Char} {s : List Char} {found : α}
    {length : Nat} (h : idiom.read? before s = some (found, length))
    : 0 < length ∧ length ≤ s.length := by
  unfold read? at h
  split at h
  · split at h
    · split at h
      · next shorter =>
          obtain ⟨_, rfl⟩ := Prod.mk.inj (Option.some.inj h)
          omega
      · cases h
    · cases h
  · cases h

/-- The pieces after a covered beginning, put together, are the rest of the text, by induction
on the text.
-/
theorem piecesFrom_text (idiom : Idiom α) (covered : Nat) (before : Option Char)
    (s : List Char)
    : (idiom.piecesFrom covered before s).flatMap Piece.text = s.drop covered := by
  induction s generalizing covered before with
  | nil => cases covered <;> simp [piecesFrom]
  | cons c s ih =>
      cases covered with
      | succ n => simpa only [piecesFrom, List.drop_succ_cons] using ih n (some c)
      | zero =>
          simp only [piecesFrom]
          split
          · next found length h =>
              obtain ⟨positive, _⟩ := read?_length h
              obtain ⟨n, rfl⟩ : ∃ n, length = n + 1 := ⟨length - 1, by omega⟩
              simp [Piece.text, ih, List.take_append_drop]
          · simp [Piece.text, ih]

/-- The pieces of a text, put together, are the text. -/
theorem pieces_text (idiom : Idiom α) (s : List Char)
    : (idiom.pieces s).flatMap Piece.text = s := by
  simpa only [pieces, List.drop_zero] using idiom.piecesFrom_text 0 none s

end Idiom

end RangeTuner.Text
