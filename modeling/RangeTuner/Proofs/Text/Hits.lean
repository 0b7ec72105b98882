import RangeTuner.Proofs.Text.Scanning
import RangeTuner.Text.Idiom

/-! Hits of an idiom. The texts of the hits are what the idiom's scanner reads at their places, and
replacing hits by a comment works piece by piece. Main statement: what holds of everything that
the scanner reads holds of every hit.
-/

namespace RangeTuner.Text

variable {α : Type}

/-- The last character of a text, or else the one before it. -/
theorem getLast?_cons_or (c : Char) (s : List Char) (before : Option Char)
    : (c :: s).getLast?.or before = s.getLast?.or (some c) := by
  rw [List.getLast?_cons]
  cases s.getLast? <;> rfl

def Piece.lexeme? : Piece α → Option (List Char)
  | .plain _ => none
  | .hit _ lexeme => some lexeme

/-- What stands in the place of a piece when hits are replaced by a comment. -/
def Piece.commented (comment : List Char) : Piece α → List Char
  | .plain c => [c]
  | .hit _ _ => comment

def Idiom.lexemes (idiom : Idiom α) (s : List Char) : List (List Char) :=
  (idiom.pieces s).filterMap Piece.lexeme?

/-- Replacing hits by a comment puts it in the place of each. -/
theorem Idiom.replace_eq_commented (idiom : Idiom α) (comment s : List Char)
    : idiom.replace (fun _ => comment) s
      = (idiom.pieces s).flatMap (Piece.commented comment) := by
  unfold replace
  congr 1

namespace Idiom

/-- What is read at a place is what the scanner finds there, with the length of what it reads. -/
theorem scan_of_read? {idiom : Idiom α} {before : Option Char} {s : List Char} {found : α}
    {length : Nat} (h : idiom.read? before s = some (found, length))
    : ∃ rest, idiom.scan s = some (found, rest) ∧ length = s.length - rest.length := by
  unfold read? at h
  split at h
  · split at h
    · next other rest scanned =>
        split at h
        · obtain ⟨rfl, rfl⟩ := Prod.mk.inj (Option.some.inj h)
          exact ⟨rest, scanned, rfl⟩
        · cases h
    · cases h
  · cases h

/-- A text is cut behind some of its pieces as it is when they are left out, by induction on the
text.
-/
theorem piecesFrom_split {idiom : Idiom α} {covered : Nat} {before : Option Char} {s : List Char}
    {piece : Piece α} {first last : List (Piece α)}
    (split : idiom.piecesFrom covered before s = first ++ piece :: last)
    : idiom.piecesFrom 0 ((s.take covered ++ first.flatMap Piece.text).getLast?.or before)
        (piece.text ++ last.flatMap Piece.text) = piece :: last := by
  induction s generalizing covered before first with
  | nil => cases first <;> simp [piecesFrom] at split
  | cons c s ih =>
      cases covered with
      | succ n =>
          rw [List.take_succ_cons, List.cons_append, getLast?_cons_or]
          exact ih split
      | zero =>
          cases first with
          | nil =>
              have whole := idiom.piecesFrom_text 0 before (c :: s)
              rw [split, List.nil_append, List.flatMap_cons, List.drop_zero] at whole
              simpa [whole] using split
          | cons other first =>
              simp only [piecesFrom] at split
              cases read : idiom.read? before (c :: s) with
              | none =>
                  simp only [read] at split
                  obtain ⟨rfl, later⟩ := List.cons.inj split
                  simpa [Piece.text, getLast?_cons_or] using ih later
              | some result =>
                  obtain ⟨found, length⟩ := result
                  simp only [read] at split
                  obtain ⟨rfl, later⟩ := List.cons.inj split
                  obtain ⟨positive, -⟩ := read?_length read
                  obtain ⟨n, rfl⟩ : ∃ n, length = n + 1 := ⟨length - 1, by omega⟩
                  simpa [Piece.text, getLast?_cons_or] using ih later

section

variable {idiom : Idiom α} {covered : Nat} {before : Option Char} {s lexeme : List Char} {c : Char}
  {found : α} {first last : List (Piece α)}

/-- At a character outside every hit nothing can be read. -/
theorem read?_of_split (split : idiom.piecesFrom covered before s = first ++ .plain c :: last)
    : idiom.read? ((s.take covered ++ first.flatMap Piece.text).getLast?.or before)
        (c :: last.flatMap Piece.text) = none := by
  have here := piecesFrom_split split
  simp only [Piece.text, List.singleton_append, piecesFrom] at here
  split at here
  · cases here
  · assumption

/-- At a hit the idiom is read with the text of the hit. -/
theorem read?_of_hit
    (split : idiom.piecesFrom covered before s = first ++ .hit found lexeme :: last)
    : idiom.read? ((s.take covered ++ first.flatMap Piece.text).getLast?.or before)
        (lexeme ++ last.flatMap Piece.text) = some (found, lexeme.length) := by
  have here := piecesFrom_split split
  simp only [Piece.text] at here
  generalize lexeme ++ last.flatMap Piece.text = place at here ⊢
  cases place with
  | nil => simp [piecesFrom] at here
  | cons c place =>
      simp only [piecesFrom] at here
      split at here
      · next other length read =>
          obtain ⟨rfl, rfl⟩ := Piece.hit.inj (List.cons.inj here).1
          rw [read, List.length_take_of_le (read?_length read).2]
      · cases here

/-- A hit among the pieces of a text is what the scanner reads where the pieces before it end. -/
theorem scan_of_split (reads : idiom.scan.ReadsOnly fun _ => True)
    (split : idiom.piecesFrom covered before s = first ++ .hit found lexeme :: last)
    : lexeme ≠ []
      ∧ idiom.scan (lexeme ++ last.flatMap Piece.text)
        = some (found, last.flatMap Piece.text) := by
  have read := read?_of_hit split
  obtain ⟨rest, scanned, length⟩ := scan_of_read? read
  obtain ⟨taken, whole, -⟩ := reads _ _ _ scanned
  have same : lexeme.length = taken.length := by simpa [whole] using length
  obtain ⟨rfl, rfl⟩ := List.append_inj whole same
  exact ⟨List.ne_nil_of_length_pos (read?_length read).1, scanned⟩

/-- Every hit is what the scanner reads of some text. -/
theorem scan_of_hit (member : .hit found lexeme ∈ idiom.piecesFrom covered before s)
    : ∃ t rest, idiom.scan t = some (found, rest)
      ∧ lexeme = t.take (t.length - rest.length) := by
  obtain ⟨first, last, split⟩ := List.append_of_mem member
  obtain ⟨rest, scanned, length⟩ := scan_of_read? (read?_of_hit split)
  exact ⟨lexeme ++ last.flatMap Piece.text, rest, scanned, by rw [← length, List.take_left]⟩

end

/-- What holds of everything that the scanner finds and reads holds of every hit. -/
theorem forall_hits {idiom : Idiom α} {holds : α → List Char → Prop}
    (reads : idiom.scan.Reads holds)
    {s : List Char} {found : α} {lexeme : List Char}
    (member : .hit found lexeme ∈ idiom.pieces s)
    : holds found lexeme := by
  obtain ⟨t, rest, scanned, rfl⟩ := scan_of_hit member
  obtain ⟨read, rfl, held⟩ := reads t found rest scanned
  simpa using held

/-- What holds of everything that the scanner finds holds of what every hit found. -/
theorem forall_found {idiom : Idiom α} {holds : α → Prop} (finds : idiom.scan.Finds holds)
    {s : List Char} {found : α} {lexeme : List Char}
    (member : .hit found lexeme ∈ idiom.pieces s)
    : holds found :=
  let ⟨t, rest, scanned, _⟩ := scan_of_hit member
  finds t found rest scanned

/-- What holds of everything that the scanner reads holds of the text of every hit. -/
theorem forall_lexemes {idiom : Idiom α} {holds : List Char → Prop}
    (reads : ∀ t found rest, idiom.scan t = some (found, rest)
      → ∃ read, t = read ++ rest ∧ holds read)
    (s : List Char)
    : ∀ lexeme ∈ idiom.lexemes s, holds lexeme := by
  intro lexeme member
  obtain ⟨piece, within, same⟩ := List.mem_filterMap.mp member
  cases piece with
  | plain c => cases same
  | hit found text =>
      cases same
      exact forall_hits reads within

end Idiom

end RangeTuner.Text
