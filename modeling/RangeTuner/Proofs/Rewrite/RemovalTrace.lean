import RangeTuner.Proofs.Rewrite.RepeatedTemplates

/-! Where the comments of a rewrite come from. Guards are removed idiom by idiom, and a later hit
may go over comments that earlier ones left. The trace of a removal tells which comments are left in
the end, and which text each of them stands for. Main statements: with its comments the trace is the
rewrite, with the removed texts it is the text, and the removed texts start and end as guards.
-/

namespace RangeTuner.Rewrite

open RangeTuner.Text

/-- Parts whose shown characters are the next `n`, and the parts behind them. -/
def splitShown (comment : List Char)
    : Nat → List (Piece Unit) → List (Piece Unit) × List (Piece Unit)
  | 0, parts => ([], parts)
  | _ + 1, [] => ([], [])
  | n + 1, part :: parts =>
      let (covered, rest) := splitShown comment (n + 1 - (part.commented comment).length) parts
      (part :: covered, rest)

/-- The parts of a text after another pass over what they show, whose pieces are given but for the
first `skip`: a hit takes the place of the parts that it covers.
-/
def regroup (comment : List Char) : Nat → List (Piece Unit) → List (Piece Unit)
    → List (Piece Unit)
  | _, [], _ => []
  | skip + 1, _ :: pieces, parts => regroup comment skip pieces parts
  | 0, .hit _ lexeme :: pieces, parts =>
      let (covered, rest) := splitShown comment lexeme.length parts
      .hit () (covered.flatMap Piece.text) :: regroup comment 0 pieces rest
  | 0, .plain _ :: _, [] => []
  | 0, .plain _ :: pieces, .plain c :: parts => .plain c :: regroup comment 0 pieces parts
  | 0, .plain _ :: pieces, .hit _ source :: parts =>
      .hit () source :: regroup comment (comment.length - 1) pieces parts

/-- The parts of a text after a pass of an idiom over what they show. -/
def pass (comment : List Char) (idiom : Idiom Unit) (before : Option Char)
    (parts : List (Piece Unit))
    : List (Piece Unit) :=
  regroup comment 0 (idiom.piecesFrom 0 before (parts.flatMap (Piece.commented comment))) parts

/-- The text cut into characters that stay and removed texts, each with a comment in its place. -/
def trace (idioms : List (Idiom Unit)) (comment : List Char) (text : List Char)
    : List (Piece Unit) :=
  idioms.foldl (fun parts idiom => pass comment idiom none parts) (text.map .plain)

def NullGuards.trace (text : List Char) : List (Piece Unit) :=
  Rewrite.trace idioms comment text

def RangeGuards.trace (text : List Char) : List (Piece Unit) :=
  Rewrite.trace idioms comment text

-----------------------------------------------------------------------------------------
-- One pass
-----------------------------------------------------------------------------------------

variable {comment : List Char}

/-- Removed texts start and end as guards, and where words may start. -/
def Placed : Option Char → List (Piece Unit) → Prop
  | _, [] => True
  | _, .plain c :: parts => Placed (some c) parts
  | before, .hit _ source :: parts =>
      before.any isWord = false ∧ source.head? = some 'i' ∧ source.getLast? = some '}'
        ∧ Placed (some '}') parts

theorem splitShown_append (filled : comment ≠ []) (covered rest : List (Piece Unit))
    : splitShown comment (covered.flatMap (Piece.commented comment)).length (covered ++ rest)
      = (covered, rest) := by
  induction covered with
  | nil => simp [splitShown]
  | cons part covered ih =>
      obtain ⟨n, long⟩ : ∃ n, (part.commented comment).length = n + 1 := by
        refine Nat.exists_eq_succ_of_ne_zero ?_
        cases part with
        | plain c => exact Nat.one_ne_zero
        | hit found source => simpa [Piece.commented] using filled
      simp only [List.flatMap_cons, List.length_append, long, List.cons_append]
      rw [show n + 1 + (covered.flatMap (Piece.commented comment)).length
        = (n + (covered.flatMap (Piece.commented comment)).length) + 1 by omega]
      simp only [splitShown, long]
      rw [show n + (covered.flatMap (Piece.commented comment)).length + 1 - (n + 1)
        = (covered.flatMap (Piece.commented comment)).length by omega, ih]

/-- The comment in front of the parts is passed over. -/
theorem regroup_comment (filled : comment ≠ []) (source : List Char)
    (pieces parts : List (Piece Unit))
    : regroup comment 0 (comment.map .plain ++ pieces) (.hit () source :: parts)
      = .hit () source :: regroup comment 0 pieces parts := by
  obtain ⟨c, more, rfl⟩ := List.exists_cons_of_ne_nil filled
  have skipped : ∀ s : List Char, ∀ comment, regroup comment s.length (s.map .plain ++ pieces) parts
      = regroup comment 0 pieces parts := by
    intro s comment
    induction s with
    | nil => rfl
    | cons d s ih => exact ih
  simp only [List.map_cons, List.cons_append, regroup, List.length_cons, Nat.add_sub_cancel,
    skipped]

/-- A guard begins with its word. -/
theorem head?_of_isHead {condition : Scanner Unit} {start : List Char}
    (head : Guards.IsHead condition start)
    : start.head? = some 'i' := by
  rw [Guards.IsHead, Guards.head, Guards.opening] at head
  simp only [bind_assoc] at head
  obtain ⟨_, rest, word, -⟩ := Scanner.bind_eq_some_iff.mp head
  have whole : start ++ ['{'] = 'i' :: 'f' :: rest := Scanner.literal_eq_some_iff.mp word
  cases start with
  | nil => cases whole
  | cons c start => rw [(List.cons.inj whole).1, List.head?_cons]

/-- The last parts are placed, behind whatever stands before them. -/
theorem Placed.later {before : Option Char} {first last : List (Piece Unit)}
    (placed : Placed before (first ++ last))
    : ∃ between, Placed between last := by
  induction first generalizing before with
  | nil => exact ⟨before, placed⟩
  | cons part first ih =>
      cases part with
      | plain d => exact ih placed
      | hit found source => exact ih placed.2.2.2

/-- Every removed text starts and ends as a guard. -/
theorem Placed.block {before : Option Char} {parts : List (Piece Unit)}
    (placed : Placed before parts)
    : ∀ source, .hit () source ∈ parts
      → source.head? = some 'i' ∧ source.getLast? = some '}' := by
  induction parts generalizing before with
  | nil => simp
  | cons part parts ih =>
      intro source member
      cases part with
      | plain c => exact ih placed source (by simpa using member)
      | hit found other =>
          obtain ⟨-, starts, ends, later⟩ := placed
          rcases List.mem_cons.mp member with same | further
          · obtain ⟨-, rfl⟩ := Piece.hit.inj same
            exact ⟨starts, ends⟩
          · exact ih later source further

/-- What a pass makes of parts: the same text, which shows what the idiom makes of what they show,
and removed texts in their places.
-/
structure Regrouped (comment : List Char) (idiom : Idiom Unit) (before shown : Option Char)
    (parts : List (Piece Unit)) : Prop where
  text : (pass comment idiom shown parts).flatMap Piece.text = parts.flatMap Piece.text
  shows : (pass comment idiom shown parts).flatMap (Piece.commented comment)
    = (idiom.piecesFrom 0 shown (parts.flatMap (Piece.commented comment))).flatMap
      (Piece.commented comment)
  placed : Placed before (pass comment idiom shown parts)

section

variable {condition : Scanner Unit} {words : List String} {before shown : Option Char}
variable {parts : List (Piece Unit)}

theorem Regrouped.plain {idiom : Idiom Unit} {c : Char}
    (unread : idiom.read? shown (c :: parts.flatMap (Piece.commented comment)) = none)
    (later : Regrouped comment idiom (some c) (some c) parts)
    : Regrouped comment idiom before shown (.plain c :: parts) := by
  have split : idiom.piecesFrom 0 shown ((.plain c :: parts).flatMap (Piece.commented comment))
      = .plain c :: idiom.piecesFrom 0 (some c) (parts.flatMap (Piece.commented comment)) := by
    simp only [List.flatMap_cons, Piece.commented, List.singleton_append, Idiom.piecesFrom, unread]
  have step : pass comment idiom shown (.plain c :: parts)
      = .plain c :: pass comment idiom (some c) parts := by
    rw [pass, split, regroup, pass]
  refine ⟨?_, ?_, ?_⟩
  · rw [step, List.flatMap_cons, later.text, List.flatMap_cons]
  · rw [step, split, List.flatMap_cons, later.shows, List.flatMap_cons]
  · rw [step]
    exact later.placed

theorem Regrouped.noted (note : Guards.IsNote comment) {source : List Char}
    (free : before.any isWord = false) (starts : source.head? = some 'i')
    (ends : source.getLast? = some '}')
    (later : Regrouped comment (Guards.idiom condition words) (some '}')
      (comment.getLast?.or shown) parts)
    : Regrouped comment (Guards.idiom condition words) before shown (.hit () source :: parts) := by
  have split : (Guards.idiom condition words).piecesFrom 0 shown
        ((.hit () source :: parts).flatMap (Piece.commented comment))
      = comment.map .plain ++ (Guards.idiom condition words).piecesFrom 0
        (comment.getLast?.or shown) (parts.flatMap (Piece.commented comment)) := by
    rw [List.flatMap_cons, Piece.commented, (spares_guard condition words).piecesFrom_append
      (quietFrom_of_none note.calm shown)]
  have step : pass comment (Guards.idiom condition words) shown (.hit () source :: parts)
      = .hit () source :: pass comment (Guards.idiom condition words)
        (comment.getLast?.or shown) parts := by
    rw [pass, split, regroup_comment note.filled, pass]
  refine ⟨?_, ?_, ?_⟩
  · rw [step, List.flatMap_cons, later.text, List.flatMap_cons]
  · rw [step, split, List.flatMap_cons, later.shows, List.flatMap_append]
    simp [List.flatMap_map, Piece.commented]
  · rw [step]
    exact ⟨free, starts, ends, later.placed⟩

/-- Parts that show a guard from a character outside the removed texts up to a brace outside them.
-/
theorem exists_covered {c : Char} {start inside rest : List Char} (braceless : '}' ∉ comment)
    (guard : Guards.IsGuard condition words start inside)
    (whole : (Piece.plain c :: parts).flatMap (Piece.commented comment)
      = start ++ '{' :: (inside ++ '}' :: rest))
    : ∃ covered first last, .plain c :: parts = covered ++ last
      ∧ parts = first ++ .plain '}' :: last
      ∧ covered.flatMap (Piece.commented comment) = start ++ '{' :: (inside ++ ['}'])
      ∧ (covered.flatMap Piece.text).head? = some 'i'
      ∧ (covered.flatMap Piece.text).getLast? = some '}' := by
  have shape : (Piece.plain c :: parts).flatMap (Piece.commented comment)
      = (start ++ '{' :: inside) ++ '}' :: rest := by
    rw [whole, List.append_assoc, List.cons_append]
  obtain ⟨first, last, cut, covers, -⟩ := Guards.exists_plain_of_commented braceless shape
  rcases List.cons_eq_append_iff.mp cut with ⟨rfl, -⟩ | ⟨more, rfl, split⟩
  · simp at covers
  refine ⟨.plain c :: (more ++ [.plain '}']), more, last, by simp [split], split, ?_, ?_, ?_⟩
  · rw [← List.cons_append, List.flatMap_append, covers]
    simp [Piece.commented]
  · have begins := head?_of_isHead guard.head
    cases start with
    | nil => cases begins
    | cons d start =>
        rw [List.flatMap_cons] at covers
        exact congrArg some ((List.cons.inj covers).1.trans (Option.some.inj begins))
  · rw [← List.cons_append, List.flatMap_append, List.getLast?_append]
    rfl

/-- A guard takes the place of the parts that show it. -/
theorem Regrouped.guard (note : Guards.IsNote comment) (near : condition.Near) {c : Char}
    (placed : Placed (some c) parts) (same : before.any isWord = shown.any isWord)
    (read : ((Guards.idiom condition words).read? shown
      (c :: parts.flatMap (Piece.commented comment))).isSome = true)
    (later : ∀ rest, rest <:+ parts → Placed (some '}') rest
      → Regrouped comment (Guards.idiom condition words) (some '}') (some '}') rest)
    : Regrouped comment (Guards.idiom condition words) before shown (.plain c :: parts) := by
  obtain ⟨admitted, start, inside, rest, guard, whole⟩ := (Guards.isSome_read?_iff near).mp read
  obtain ⟨covered, first, last, parted, rfl, lexeme, starts, ends⟩ :=
    exists_covered (fun member => (note.plain _ member).2 rfl) guard whole
  have split : (Guards.idiom condition words).piecesFrom 0 shown
        ((covered ++ last).flatMap (Piece.commented comment))
      = .hit () (covered.flatMap (Piece.commented comment))
        :: (Guards.idiom condition words).piecesFrom 0 (some '}')
          (last.flatMap (Piece.commented comment)) := by
    rw [List.flatMap_append, Idiom.piecesFrom_of_scan admitted (by simp [lexeme])
      ((Guards.scan_eq_some_iff near).mpr ⟨start, inside, guard, by simp [lexeme]⟩)]
    simp [lexeme, List.getLast?_append, List.getLast?_cons]
  have step : pass comment (Guards.idiom condition words) shown (covered ++ last)
      = .hit () (covered.flatMap Piece.text)
        :: pass comment (Guards.idiom condition words) (some '}') last := by
    rw [pass, split, regroup, splitShown_append note.filled, pass]
  obtain ⟨_, behind⟩ := placed.later
  have after := later last ⟨first ++ [.plain '}'], by simp⟩ behind
  rw [parted]
  refine ⟨?_, ?_, ?_⟩
  · rw [step, List.flatMap_cons, after.text, List.flatMap_append]
    rfl
  · rw [step, split, List.flatMap_cons, List.flatMap_cons, after.shows]
    rfl
  · have free : shown.any isWord = false := by
      simpa [Guards.idiom, Opening.admits] using admitted
    rw [step]
    exact ⟨same.trans free, starts, ends, after.placed⟩

end

/-- A pass of a guard idiom over parts, by induction on them. -/
theorem regrouped {condition : Scanner Unit} {words : List String} {before shown : Option Char}
    {parts : List (Piece Unit)} (note : Guards.IsNote comment) (near : condition.Near)
    (same : before.any isWord = shown.any isWord) (placed : Placed before parts)
    : Regrouped comment (Guards.idiom condition words) before shown parts := by
  match parts, placed with
  | [], _ => exact ⟨rfl, rfl, trivial⟩
  | .hit () source :: parts, ⟨free, starts, ends, later⟩ =>
      refine .noted note free starts ends (regrouped note near ?_ later)
      obtain ⟨c, last, word⟩ := Option.map_eq_some_iff.mp note.ends
      rw [last, Option.some_or, Option.any_some, Option.any_some, word]
      rfl
  | .plain c :: parts, placed =>
      cases read : (Guards.idiom condition words).read? shown
          (c :: parts.flatMap (Piece.commented comment)) with
      | none => exact .plain read (regrouped note near rfl placed)
      | some found =>
          refine .guard note near placed same (by rw [read]; rfl) fun rest suffix placed => ?_
          have shorter := suffix.length_le
          exact regrouped note near rfl placed
termination_by parts.length

-----------------------------------------------------------------------------------------
-- All passes
-----------------------------------------------------------------------------------------

/-- The trace of a removal: with its comments it is the rewrite, with the removed texts it is the
text, and the removed texts start and end as guards. By induction on the idioms.
-/
theorem trace_of_guards {idioms : List (Idiom Unit)} (note : Guards.IsNote comment)
    (guards : ∀ idiom ∈ idioms, ∃ condition words, condition.Near
      ∧ idiom = Guards.idiom condition words)
    (text : List Char)
    : (trace idioms comment text).flatMap Piece.text = text
      ∧ (trace idioms comment text).flatMap (Piece.commented comment)
        = replaceAll idioms comment text
      ∧ Placed none (trace idioms comment text) := by
  induction idioms using List.reverseRecOn with
  | nil =>
      have placed : ∀ (before : Option Char), Placed before (text.map .plain) := by
        induction text with
        | nil => exact fun _ => trivial
        | cons c text ih => exact fun _ => ih (some c)
      exact ⟨by simp [trace, List.flatMap_map, Piece.text],
        by simp [trace, replaceAll, List.flatMap_map, Piece.commented], placed none⟩
  | append_singleton idioms idiom ih =>
      rw [List.forall_mem_append, List.forall_mem_singleton] at guards
      obtain ⟨others, condition, words, near, rfl⟩ := guards
      obtain ⟨whole, shows, placed⟩ := ih others
      have last : Regrouped comment (Guards.idiom condition words) none none
          (trace idioms comment text) := regrouped note near rfl placed
      have step : trace (idioms ++ [Guards.idiom condition words]) comment text
          = pass comment (Guards.idiom condition words) none (trace idioms comment text) := by
        simp only [trace, List.foldl_append, List.foldl_cons, List.foldl_nil]
      have replaced : replaceAll (idioms ++ [Guards.idiom condition words]) comment text
          = (Guards.idiom condition words).replace (fun _ => comment)
            (replaceAll idioms comment text) := by
        simp only [replaceAll, List.foldl_append, List.foldl_cons, List.foldl_nil]
      rw [step]
      refine ⟨last.text.trans whole, ?_, last.placed⟩
      rw [last.shows, shows, replaced, Idiom.replace_eq_commented, Idiom.pieces]

theorem NullGuards.trace_spec (text : List Char)
    : (NullGuards.trace text).flatMap Piece.text = text
      ∧ (NullGuards.trace text).flatMap (Piece.commented NullGuards.comment)
        = NullGuards.rewrite text
      ∧ Placed none (NullGuards.trace text) := by
  refine trace_of_guards isNote_comment ?_ text
  rw [idioms_eq, List.forall_mem_map]
  exact fun guard known => ⟨guard.1, guard.2, (simple_guards guard known).near, rfl⟩

theorem RangeGuards.trace_spec (text : List Char)
    : (RangeGuards.trace text).flatMap Piece.text = text
      ∧ (RangeGuards.trace text).flatMap (Piece.commented RangeGuards.comment)
        = RangeGuards.rewrite text
      ∧ Placed none (RangeGuards.trace text) := by
  have guards : idioms = conditions.map guardOf := rfl
  refine trace_of_guards isNote_comment ?_ text
  rw [guards, List.forall_mem_map]
  exact fun condition known => ⟨condition, _, conditions_near condition known, rfl⟩

end RangeTuner.Rewrite
