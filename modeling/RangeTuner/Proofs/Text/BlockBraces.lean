import RangeTuner.Proofs.Text.Balance
import RangeTuner.Proofs.Text.Pieces
import RangeTuner.Text.Lines

/-! Braces in order. The braces of a text are read part by part, so a change is judged by the parts
that it touches. Main statements: replacing hits keeps the braces where every hit keeps its own,
the lines of a text have the braces of the text, and the inside of a block is balanced.
-/

namespace RangeTuner.Text

variable {s t : List Char} {p : Char → Bool}

-----------------------------------------------------------------------------------------
-- Braces of parts
-----------------------------------------------------------------------------------------

theorem braces_append (s t : List Char) : braces (s ++ t) = braces s ++ braces t :=
  List.filter_append ..

theorem braces_cons (c : Char) (s : List Char) : braces (c :: s) = braces [c] ++ braces s :=
  braces_append [c] s

theorem braces_flatMap {α : Type} (f : α → List Char) (xs : List α)
    : braces (xs.flatMap f) = xs.flatMap fun x => braces (f x) := by
  induction xs with
  | nil => rfl
  | cons x xs ih => rw [List.flatMap_cons, braces_append, ih, List.flatMap_cons]

theorem braces_reverse (s : List Char) : braces s.reverse = (braces s).reverse :=
  List.filter_reverse ..

/-- A text has no braces when its characters are of a class that has none. -/
theorem braces_eq_nil {allowed : Char → Prop} (opening : ¬ allowed '{') (closing : ¬ allowed '}')
    (all : ∀ c ∈ s, allowed c)
    : braces s = [] := by
  refine List.filter_eq_nil_iff.mpr fun c member brace => ?_
  rcases (Bool.or_eq_true _ _).mp brace with same | same
  · exact opening (beq_iff_eq.mp same ▸ all c member)
  · exact closing (beq_iff_eq.mp same ▸ all c member)

/-- Characters at the start of a text that are no braces can be left out. -/
theorem braces_dropWhile (opening : p '{' = false) (closing : p '}' = false) (s : List Char)
    : braces (s.dropWhile p) = braces s := by
  have dropped : braces (s.takeWhile p) = [] :=
    braces_eq_nil (ne_true_of_eq_false opening) (ne_true_of_eq_false closing)
      (List.all_eq_true.mp List.all_takeWhile)
  conv => rhs; rw [← List.takeWhile_append_dropWhile (p := p) (l := s), braces_append, dropped]
  rfl

/-- Characters at the end of a text that are no braces can be left out. -/
theorem braces_dropEndWhile (opening : p '{' = false) (closing : p '}' = false) (s : List Char)
    : braces (dropEndWhile p s) = braces s := by
  rw [dropEndWhile, braces_reverse, braces_dropWhile opening closing, braces_reverse,
    List.reverse_reverse]

-----------------------------------------------------------------------------------------
-- Replacing and cutting
-----------------------------------------------------------------------------------------

/-- Replacing hits keeps the braces of a text where every hit keeps its own. -/
theorem Idiom.braces_replace {α : Type} {idiom : Idiom α} {new : α → List Char} {text : List Char}
    (each : ∀ found lexeme, .hit found lexeme ∈ idiom.pieces text
      → braces (new found) = braces lexeme)
    : braces (idiom.replace new text) = braces text := by
  have pieces : ∀ piece ∈ idiom.pieces text,
      braces (Piece.replaced new piece) = braces piece.text := by
    intro piece member
    cases piece with
    | plain c => rfl
    | hit found lexeme => exact each found lexeme member
  rw [Idiom.replace_eq_replaced, braces_flatMap, List.flatMap_congr pieces, ← braces_flatMap,
    Idiom.pieces_text]

/-- The lines of a text, put together, have its braces, by induction on the text. -/
theorem flatMap_braces_lines (s : List Char) : (lines s).flatMap braces = braces s := by
  suffices general : ∀ line, (linesFrom line s).flatMap braces = braces (line.reverse ++ s) from
    general []
  intro line
  fun_induction linesFrom line s with
  | case1 line empty => rw [List.isEmpty_iff.mp empty]; rfl
  | case2 line filled => simp
  | case3 line rest ih =>
      have ended : ∀ line : List Char, braces (line ++ '\n' :: rest) = braces line ++ braces rest :=
        fun line => by rw [braces_append, braces_cons]; rfl
      rw [List.flatMap_cons, ih, ended, List.reverse_nil, List.nil_append]
      congr 1
      split
      next start =>
        rw [List.reverse_cons, braces_append]
        exact (List.append_nil _).symm
      next => rfl
  | case4 line c rest other ih =>
      rw [ih, List.reverse_cons, List.append_assoc]
      rfl

-----------------------------------------------------------------------------------------
-- Blocks
-----------------------------------------------------------------------------------------

/-- A split behind a character, with the character put in front of it, is one of what stands behind
the character.
-/
theorem exists_tail_of_map_cons {c : Char} {split? : Option (List Char × List Char)}
    {inside rest : List Char}
    (h : (split?.map fun (inside, rest) => (c :: inside, rest)) = some (inside, rest))
    : ∃ tail, inside = c :: tail ∧ split? = some (tail, rest) := by
  obtain ⟨⟨tail, after⟩, found, same⟩ := Option.map_eq_some_iff.mp h
  obtain ⟨rfl, rfl⟩ := Prod.mk.inj same
  exact ⟨tail, rfl, found⟩

/-- The inside of a block, its brace and the rest are the text, by induction on the text. -/
theorem eq_append_of_splitAtClose? {depth : Nat} {s inside rest : List Char}
    (h : splitAtClose? depth s = some (inside, rest))
    : s = inside ++ '}' :: rest := by
  fun_induction splitAtClose? depth s generalizing inside with
  | case1 depth => cases h
  | case2 s => cases h; rfl
  | case3 depth s ih | case4 depth s ih | case5 depth c s notLast notClose notOpen ih =>
      obtain ⟨tail, rfl, later⟩ := exists_tail_of_map_cons h
      rw [ih later]
      rfl

/-- A block is found again whatever follows it, by induction on the text. -/
theorem splitAtClose?_append {depth : Nat} {s inside rest : List Char}
    (h : splitAtClose? depth s = some (inside, rest)) (other : List Char)
    : splitAtClose? depth (inside ++ '}' :: other) = some (inside, other) := by
  fun_induction splitAtClose? depth s generalizing inside with
  | case1 depth => cases h
  | case2 s =>
      cases h
      rfl
  | case3 depth s ih | case4 depth s ih | case5 depth c s notLast notClose notOpen ih =>
      obtain ⟨tail, rfl, later⟩ := exists_tail_of_map_cons h
      simp_all [splitAtClose?]

/-- A text closes a number of open blocks, and no beginning of it closes more. -/
def ClosesBlocks (depth : Nat) (s : List Char) : Prop :=
  excess s = -(depth : Int) ∧ ∀ start, start <+: s → -(depth : Int) ≤ excess start

/-- Behind its first character, a text closes the blocks that the character leaves open. -/
theorem ClosesBlocks.cons {c : Char} {depth behind : Nat}
    (step : (behind : Int) = depth + excess [c]) (closes : ClosesBlocks behind s)
    : ClosesBlocks depth (c :: s) := by
  obtain ⟨whole, kept⟩ := closes
  refine ⟨by rw [excess_cons, whole]; omega, fun start begins => ?_⟩
  rcases List.prefix_cons_iff.mp begins with rfl | ⟨more, rfl, within⟩
  · simp [excess]
  · have later := kept more within
    rw [excess_cons]
    omega

/-- What stands before the brace that closes the outermost of some blocks closes the others and
never more, by induction on the text.
-/
theorem closesBlocks_of_splitAtClose? {depth : Nat} {inside rest : List Char}
    (h : splitAtClose? depth s = some (inside, rest))
    : ClosesBlocks depth inside := by
  fun_induction splitAtClose? depth s generalizing inside with
  | case1 depth => cases h
  | case2 s =>
      cases h
      exact ⟨rfl, fun start begins => by simp [List.prefix_nil.mp begins, excess]⟩
  | case3 depth s ih =>
      obtain ⟨tail, rfl, later⟩ := exists_tail_of_map_cons h
      exact (ih later).cons (by simp [excess])
  | case4 depth s ih =>
      obtain ⟨tail, rfl, later⟩ := exists_tail_of_map_cons h
      exact (ih later).cons (by simp [excess])
  | case5 depth c s notLast notClose notOpen ih =>
      obtain ⟨tail, rfl, later⟩ := exists_tail_of_map_cons h
      have other : c ≠ '}' := by
        cases depth with
        | zero => exact notLast rfl
        | succ n => exact notClose n rfl
      have plain : excess [c] = 0 :=
        excess_of_noBrace (List.forall_mem_singleton.mpr ⟨notOpen, other⟩)
      exact (ih later).cons (by rw [plain, add_zero])

/-- The inside of a block is balanced. -/
theorem balanced_of_block? {inside rest : List Char} (h : block? s = some (inside, rest))
    : Balanced inside := by
  simpa [Balanced, ClosesBlocks] using closesBlocks_of_splitAtClose? h

end RangeTuner.Text
