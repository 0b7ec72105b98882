import RangeTuner.Text.CharClass

/-! Lines of a text and the blanks around them. A line ends before its line feed, or before a
carriage return that stands directly in front of one; a last line without a line feed counts
only when it is not empty.
-/

namespace RangeTuner.Text

/-- The lines of a text whose current line so far, backwards, is `line`. -/
def linesFrom (line : List Char) : List Char → List (List Char)
  | [] => if line.isEmpty then [] else [line.reverse]
  | '\n' :: rest =>
      (match line with
        | '\r' :: start => start.reverse
        | _ => line.reverse) :: linesFrom [] rest
  | c :: rest => linesFrom (c :: line) rest

/-- The lines of a text, without their ends. -/
def lines (s : List Char) : List (List Char) :=
  linesFrom [] s

/-- The text without the blanks it starts with. -/
def trimStart (s : List Char) : List Char :=
  s.dropWhile isBlank

/-- The text without the characters of a class that it ends with. -/
def dropEndWhile (p : Char → Bool) (s : List Char) : List Char :=
  (s.reverse.dropWhile p).reverse

/-- The text without the blanks it ends with. -/
def trimEnd (s : List Char) : List Char :=
  dropEndWhile isBlank s

/-- The text without the blanks around it. -/
def trim (s : List Char) : List Char :=
  trimEnd (trimStart s)

/-- A text of blanks alone, the empty one included. -/
def isBlankLine (s : List Char) : Bool :=
  s.all isBlank

/-- The text after `start`, when it starts with it. -/
def after? : List Char → List Char → Option (List Char)
  | [], s => some s
  | _ :: _, [] => none
  | a :: start, c :: s => if a = c then after? start s else none

/-- What stands before and after the first place where `part` occurs. -/
def splitAtFirst? (part : List Char) : List Char → Option (List Char × List Char)
  | [] => (after? part []).map ([], ·)
  | c :: s =>
      match after? part (c :: s) with
      | some rest => some ([], rest)
      | none => (splitAtFirst? part s).map fun found => (c :: found.1, found.2)

/-- `part` occurs somewhere in the text. -/
def occurs (part s : List Char) : Bool :=
  (splitAtFirst? part s).isSome

/-- Starting with a text means being that text and a rest, by induction on it. -/
theorem after?_eq_some_iff {start s rest : List Char}
    : after? start s = some rest ↔ s = start ++ rest := by
  induction start generalizing s with
  | nil => simp [after?, eq_comm]
  | cons a start ih =>
      cases s with
      | nil => simp [after?]
      | cons c s =>
          by_cases h : a = c
          · subst h
            simp [after?, ih]
          · simp [after?, h, Ne.symm h]

/-- The two sides of the first occurrence, with it between them, are the text. -/
theorem eq_append_of_splitAtFirst? {part s before rest : List Char}
    (h : splitAtFirst? part s = some (before, rest))
    : s = before ++ (part ++ rest) := by
  induction s generalizing before rest with
  | nil =>
      simp only [splitAtFirst?, Option.map_eq_some_iff] at h
      obtain ⟨tail, found, same⟩ := h
      obtain ⟨rfl, rfl⟩ := Prod.mk.inj same
      simpa only [List.nil_append] using after?_eq_some_iff.mp found
  | cons c s ih =>
      simp only [splitAtFirst?] at h
      split at h
      · next tail found =>
          obtain ⟨rfl, rfl⟩ := Prod.mk.inj (Option.some.inj h)
          simpa only [List.nil_append] using after?_eq_some_iff.mp found
      · obtain ⟨⟨start, tail⟩, found, same⟩ := Option.map_eq_some_iff.mp h
        obtain ⟨rfl, rfl⟩ := Prod.mk.inj same
        simp [ih found]

end RangeTuner.Text
