import RangeTuner.Proofs.Rewrite.GuardBraces
import RangeTuner.Proofs.Rewrite.Run
import RangeTuner.Proofs.Rewrite.Tame
import RangeTuner.Proofs.Text.Places

/-! Removing range guards a second time. The block of a guard ends at its first closing brace, and
that may be one among the arguments of a validation. Where the validation is removed, the block
reaches further and may now hold the words of a guard. Main statement: the second time removes
something exactly where the first one uncovers a guard in this way.
-/

namespace RangeTuner.Rewrite

open RangeTuner.Text RangeTuner.Spec

namespace Guards

-----------------------------------------------------------------------------------------
-- Heads that go on into a comment
-----------------------------------------------------------------------------------------

/-- A failed validation up to the bracket around its arguments. -/
def validationName : Scanner Unit := do
  opening
  Scanner.literal "!"
  Scanner.blanks
  let name ← Scanner.word
  guard (hasEnds "validate" "Coordinates" name)
  Scanner.blanks

/-- The end of a condition. -/
def conditionEnd : Scanner Unit := do
  Scanner.blanks
  Scanner.literal ")"
  Scanner.blanks

theorem head_failedValidation
    : head failedValidation = (do
        validationName
        Scanner.literal "("
        let _ ← Scanner.upTo ')'
        conditionEnd) := by
  simp [head, failedValidation, validationName, conditionEnd, bind_assoc]

theorem validationName_near : validationName.Near :=
  ((Scanner.Near.literal _).bind fun _ => Scanner.Near.blanks.bind fun _ =>
    (Scanner.Near.literal _).bind fun _ => .blanks).bind fun _ =>
      (Scanner.Near.literal _).bind fun _ => Scanner.Near.blanks.bind fun _ =>
        Scanner.Near.word.bind fun _ => Scanner.Near.guard.bind fun _ => .blanks

theorem conditionEnd_near : conditionEnd.Near :=
  Scanner.Near.blanks.bind fun _ => (Scanner.Near.literal _).bind fun _ => .blanks

/-- The head of a failed validation is its name, arguments without a closing bracket, and the end
of the condition.
-/
theorem isHead_failedValidation_iff {start : List Char}
    : IsHead failedValidation start
      ↔ ∃ name arguments finish, start = name ++ '(' :: (arguments ++ ')' :: finish)
        ∧ validationName (name ++ ['(']) = some ((), ['(']) ∧ ')' ∉ arguments
        ∧ conditionEnd (finish ++ ['{']) = some ((), ['{']) := by
  rw [IsHead, head_failedValidation]
  constructor
  · intro h
    obtain ⟨_, middle, named, h⟩ := Scanner.bind_eq_some_iff.mp h
    obtain ⟨_, middle, opened, h⟩ := Scanner.bind_eq_some_iff.mp h
    obtain ⟨arguments, middle, closed, ended⟩ := Scanner.bind_eq_some_iff.mp h
    obtain rfl := Scanner.literal_eq_some_iff.mp opened
    obtain ⟨rfl, absent⟩ := Scanner.upTo_eq_some_iff.mp closed
    obtain ⟨name, whole, -⟩ := validationName_near.reads _ _ _ named
    obtain ⟨finish, rfl, -⟩ := conditionEnd_near.reads _ _ _ ended
    rw [whole] at named
    have same : start = name ++ '(' :: (arguments ++ ')' :: finish) :=
      List.append_cancel_right (by simpa using whole : start ++ ['{'] = _ ++ ['{'])
    exact ⟨name, arguments, finish, same, validationName_near.again named rfl, absent, ended⟩
  · rintro ⟨name, arguments, finish, rfl, named, absent, ended⟩
    refine Scanner.bind_eq_some_iff.mpr ⟨(), '(' :: (arguments ++ ')' :: (finish ++ ['{'])), ?_, ?_⟩
    · simpa using validationName_near.again named (by rfl :
        ['('].head? = ('(' :: (arguments ++ ')' :: (finish ++ ['{']))).head?)
    · exact Scanner.bind_eq_some_iff.mpr ⟨(), _, rfl, Scanner.bind_eq_some_iff.mpr
        ⟨arguments, _, Scanner.upTo_eq_some_iff.mpr ⟨rfl, absent⟩, ended⟩⟩

/-- The name of a validation has no slash and no closing bracket. -/
theorem validationName_reads : validationName.ReadsOnly fun c => c ≠ '/' ∧ c ≠ ')' := by
  have apart : ∀ {p : Char → Bool}, p '/' = false → p ')' = false
      → ∀ c, p c = true → c ≠ '/' ∧ c ≠ ')' := by
    rintro p slash bracket c member
    constructor <;>
      · rintro rfl
        simp_all
  have blanks : Scanner.blanks.ReadsOnly fun c => c ≠ '/' ∧ c ≠ ')' :=
    .blanks (apart (by decide) (by decide))
  have start : opening.ReadsOnly fun c => c ≠ '/' ∧ c ≠ ')' :=
    (Scanner.ReadsOnly.literal (by simp)).bind fun _ => blanks.bind fun _ =>
      (Scanner.ReadsOnly.literal (by simp)).bind fun _ => blanks
  exact start.bind fun _ => (Scanner.ReadsOnly.literal (by simp)).bind fun _ =>
    blanks.bind fun _ => (Scanner.ReadsOnly.run1 (apart (by decide) (by decide))).bind fun _ =>
      Scanner.ReadsOnly.guard.bind fun _ => blanks

/-- The end of a condition has no slash. -/
theorem conditionEnd_reads : conditionEnd.ReadsOnly fun c => c ≠ '/' := by
  have blanks : Scanner.blanks.ReadsOnly fun c => c ≠ '/' := by
    refine .blanks fun c blank => ?_
    rintro rfl
    exact absurd blank (by decide)
  exact blanks.bind fun _ => (Scanner.ReadsOnly.literal (by simp)).bind fun _ => blanks

/-- A head that goes on into a comment could go on into the head of a guard in its place. -/
def TakesHead (condition other : Scanner Unit) : Prop :=
  ∀ {start more head}, IsHead condition (start ++ '/' :: more) → IsHead other head
    → IsHead condition (start ++ head)

theorem slashless_of_isBlank (c : Char) (blank : isBlank c = true) : c ≠ '/' ∧ NoBrace c := by
  refine ⟨?_, noBrace_of_isBlank c blank⟩
  rintro rfl
  exact absurd blank (by decide)

theorem slashless_of_isWord (c : Char) (inWord : isWord c = true) : c ≠ '/' ∧ NoBrace c := by
  refine ⟨?_, noBrace_of_isWord c inWord⟩
  rintro rfl
  exact absurd inWord (by decide)

/-- A head without slashes never goes on into a comment. -/
theorem takesHead_of_slashless {condition : Scanner Unit}
    (reads : condition.ReadsOnly fun c => c ≠ '/' ∧ NoBrace c) (other : Scanner Unit)
    : TakesHead condition other := by
  have signs : ∀ c ∈ "if()".toList, c ≠ '/' ∧ NoBrace c := fun c member => by
    simpa using List.all_eq_true.mp (by decide :
      ("if()".toList.all fun c => c ≠ '/' ∧ NoBrace c) = true) c member
  intro start more head into _
  obtain ⟨_, same, slashless⟩ := head_reads slashless_of_isBlank signs reads _ _ _ into
  obtain rfl := List.append_cancel_right same
  exact absurd rfl (slashless '/' (by simp)).1

/-- Where the arguments of a validation go on into a comment, they could go on into the head of
another validation.
-/
theorem takesHead_failedValidation : TakesHead failedValidation failedValidation := by
  intro start more other into head
  obtain ⟨name, arguments, finish, whole, named, unclosed, ended⟩ :=
    isHead_failedValidation_iff.mp into
  obtain ⟨name', arguments', finish', rfl, named', unclosed', ended'⟩ :=
    isHead_failedValidation_iff.mp head
  obtain ⟨_, same, plain⟩ := validationName_reads _ _ _ named
  obtain rfl := List.append_cancel_right same
  obtain ⟨_, same, bare⟩ := validationName_reads _ _ _ named'
  obtain rfl := List.append_cancel_right same
  obtain ⟨_, same, slashless⟩ := conditionEnd_reads _ _ _ ended
  obtain rfl := List.append_cancel_right same
  -- the slash is one of the arguments
  obtain ⟨before, rfl, beyond, rfl⟩ : ∃ before, start = name ++ '(' :: before
      ∧ ∃ beyond, arguments = before ++ '/' :: beyond := by
    rcases append_cons_eq_append_iff.mp whole with ⟨x, rfl, -⟩ | ⟨x, rfl, rest⟩
    · exact absurd rfl (plain '/' (by simp)).1
    rcases List.cons_eq_append_iff.mp rest with ⟨-, same⟩ | ⟨before, rfl, inner⟩
    · cases same
    rcases append_cons_eq_append_iff.mp inner.symm with ⟨beyond, rfl, -⟩ | ⟨y, -, behind⟩
    · exact ⟨before, rfl, beyond, rfl⟩
    rcases List.cons_eq_append_iff.mp behind with ⟨-, same⟩ | ⟨z, rfl, rfl⟩
    · cases same
    · exact absurd rfl (slashless '/' (by simp))
  refine isHead_failedValidation_iff.mpr ⟨name, before ++ name' ++ '(' :: arguments', finish',
    by simp, named, ?_, ended'⟩
  have bracketless : ')' ∉ name' := fun member => (bare ')' member).2 rfl
  simp only [List.mem_append, not_or] at unclosed
  simp [unclosed.1, bracketless, unclosed']

-----------------------------------------------------------------------------------------
-- Guards around a comment
-----------------------------------------------------------------------------------------

/-- A guard that is read before or around a comment is read before or around the guard in its
place, unless the head of that one has a closing brace and the block of the other goes over it.
-/
theorem isGuard_around_old {condition other : Scanner Unit} {words words' : List String}
    {common comment new start inside start' inside' rest : List Char}
    (takes : TakesHead condition other)
    (includes : ∀ t, hasWords words' t = true → hasWords words t = true)
    (slash : ∃ more, comment = '/' :: more) (plain : ∀ c ∈ comment, NoBrace c)
    (guard : IsGuard condition words start inside) (removed : IsGuard other words' start' inside')
    (whole : common ++ (comment ++ new) = start ++ '{' :: (inside ++ '}' :: rest))
    (old : List Char)
    : (∃ start inside rest, IsGuard condition words start inside
        ∧ common ++ (start' ++ '{' :: (inside' ++ '}' :: old)) = start ++ '{' :: (inside ++ '}' :: rest))
      ∨ '}' ∈ start' ∧ ∃ before after, common = start ++ '{' :: before
        ∧ inside = before ++ (comment ++ after) ∧ new = after ++ '}' :: rest := by
  obtain ⟨more, rfl⟩ := slash
  rcases append_cons_eq_append_iff.mp whole with ⟨x, rfl, -⟩ | ⟨x, rfl, block⟩
  · exact .inl ⟨common ++ start', inside', old,
      ⟨takes guard.head removed.head, removed.unclosed, includes _ removed.words⟩, by simp⟩
  rcases List.cons_eq_append_iff.mp block with ⟨-, same⟩ | ⟨before, rfl, within⟩
  · cases same
  rcases append_cons_eq_append_iff.mp within.symm with ⟨x, rfl, behind⟩ | ⟨x, rfl, behind⟩
  · -- the comment stands in the block
    rcases append_cons_eq_append_iff.mp behind.symm with ⟨y, rfl, -⟩ | ⟨after, rfl, rfl⟩
    · exact absurd rfl (plain '}' (by simp)).2
    by_cases brace : '}' ∈ start'
    · exact .inr ⟨brace, before, after, rfl, rfl, rfl⟩
    · refine .inl ⟨start, before ++ start' ++ '{' :: inside', old, ⟨guard.head, ?_, ?_⟩, by simp⟩
      · have unclosed := guard.unclosed
        simp only [List.mem_append, not_or] at unclosed
        simp [unclosed.1, brace, removed.unclosed]
      · exact hasWords_append_cons (by decide) _ (includes _ removed.words)
  · rcases List.cons_eq_append_iff.mp behind with ⟨-, same⟩ | ⟨y, rfl, -⟩
    · cases same
    · exact .inl ⟨start, inside, y ++ (start' ++ '{' :: (inside' ++ '}' :: old)), guard, by simp⟩

/-- A character that comments do not have stays when hits are replaced by comments, by induction on
the pieces.
-/
theorem exists_plain_of_commented {α : Type} {pieces : List (Piece α)}
    {comment before rest : List Char} {c : Char} (absent : c ∉ comment)
    (same : pieces.flatMap (Piece.commented comment) = before ++ c :: rest)
    : ∃ first last, pieces = first ++ .plain c :: last
      ∧ first.flatMap (Piece.commented comment) = before
      ∧ last.flatMap (Piece.commented comment) = rest := by
  induction pieces generalizing before with
  | nil => simp at same
  | cons piece pieces ih =>
      rw [List.flatMap_cons] at same
      rcases append_cons_eq_append_iff.mp same.symm with ⟨x, inside, rfl⟩ | ⟨x, rfl, later⟩
      · cases piece with
        | hit found lexeme =>
            rw [Piece.commented] at inside
            exact absurd (by simp [inside]) absent
        | plain d =>
            rcases List.append_eq_singleton_iff.mp inside.symm with ⟨rfl, alone⟩ | ⟨-, alone⟩
            · obtain ⟨rfl, rfl⟩ := List.cons.inj alone
              exact ⟨[], pieces, rfl, rfl, rfl⟩
            · cases alone
      · obtain ⟨first, last, rfl, rfl, rest⟩ := ih later
        exact ⟨piece :: first, last, rfl, rfl, rest⟩

variable {condition other : Scanner Unit} {words words' : List String} {comment s : List Char}

/-- Where hits of an idiom are replaced by comments, a guard is uncovered: its head stands outside
the hits, and its block goes over a hit with a closing brace of its own to the first one behind it.
-/
def Uncovers (condition : Scanner Unit) (words : List String) (idiom : Idiom Unit)
    (comment s : List Char)
    : Prop :=
  ∃ first start before lexeme after last,
    idiom.pieces s = first ++ ((start ++ '{' :: before).map .plain
      ++ .hit () lexeme :: (after ++ .plain '}' :: last))
    ∧ Opening.wordStart.admits (first.flatMap Piece.text).getLast? = true
    ∧ IsGuard condition words start
      (before ++ (comment ++ after.flatMap (Piece.commented comment)))
    ∧ 2 ≤ lexeme.count '}'

/-- A word may start behind a guard as behind the comment in its place. -/
theorem admits_commented (near : other.Near) (ends : comment.getLast?.map isWord = some false)
    {first : List (Piece Unit)} (within : first ⊆ (idiom other words).pieces s)
    : Opening.wordStart.admits (first.flatMap (Piece.commented comment)).getLast?
      = Opening.wordStart.admits (first.flatMap Piece.text).getLast? := by
  refine admits_flatMap_congr fun piece member => ?_
  cases piece with
  | plain c => rfl
  | hit found lexeme =>
      obtain ⟨start, inside, -, rfl⟩ := Idiom.forall_hits (reads_guard near words) (within member)
      have closed : isWord '}' = false := by decide
      simp [Piece.commented, Piece.text, ends, List.getLast?_cons, closed]

/-- A guard can be read where a word may start and a guard stands. -/
theorem isSome_read?_iff (near : condition.Near) {before : Option Char}
    : ((idiom condition words).read? before s).isSome = true
      ↔ Opening.wordStart.admits before = true
        ∧ ∃ start inside rest, IsGuard condition words start inside
          ∧ s = start ++ '{' :: (inside ++ '}' :: rest) := by
  have filled : (idiom condition words).scan.Reads fun _ read => read ≠ [] := by
    intro t _ rest scanned
    obtain ⟨_, rfl, start, inside, -, rfl⟩ := reads_guard near words _ _ _ scanned
    exact ⟨_, rfl, by simp⟩
  rw [Idiom.isSome_read?_iff filled]
  refine and_congr_right fun _ => ⟨?_, ?_⟩
  · rintro ⟨_, rest, scanned⟩
    obtain ⟨start, inside, guard, whole⟩ := (scan_eq_some_iff near).mp scanned
    exact ⟨start, inside, rest, guard, whole⟩
  · rintro ⟨start, inside, rest, guard, whole⟩
    exact ⟨(), rest, (scan_eq_some_iff near).mpr ⟨start, inside, guard, whole⟩⟩

/-- The guard can be read at a character outside the hits of another idiom. -/
def StandsOutside (idiom other : Idiom Unit) (s : List Char) : Prop :=
  ∃ first c last, other.pieces s = first ++ .plain c :: last
    ∧ (idiom.read? (first.flatMap Piece.text).getLast? (c :: last.flatMap Piece.text)).isSome = true

/-- What the proofs use of a comment in the place of a guard. -/
structure IsNote (comment : List Char) : Prop where
  slash : ∃ more, comment = '/' :: more
  plain : ∀ c ∈ comment, NoBrace c
  ends : comment.getLast?.map isWord = some false
  calm : quietFrom calm none comment = true

theorem IsNote.filled (note : IsNote comment) : comment ≠ [] := by
  obtain ⟨more, rfl⟩ := note.slash
  exact List.cons_ne_nil _ _

theorem IsNote.spared (note : IsNote comment) (condition : Scanner Unit) (words : List String)
    (before : Option Char) (rest : List Char)
    : ¬ (idiom condition words).StandsIn before comment rest :=
  (spares_guard condition words).not_standsIn (quietFrom_of_none note.calm before)

/-- A guard that is left when others are replaced by comments stood outside them, or is uncovered.
-/
theorem standsOutside_or_uncovers (near : condition.Near) (near' : other.Near)
    (takes : TakesHead condition other)
    (includes : ∀ t, hasWords words' t = true → hasWords words t = true)
    (note : IsNote comment)
    (stands : (idiom condition words).StandsIn none
      ((idiom other words').replace (fun _ => comment) s) [])
    : StandsOutside (idiom condition words) (idiom other words') s
      ∨ Uncovers condition words (idiom other words') comment s := by
  rw [Idiom.replace_eq_commented] at stands
  obtain ⟨first, piece, last, split, here⟩ := Idiom.standsIn_flatMap stands
  rw [List.append_nil, Option.or_none] at here
  cases piece with
  | hit found lexeme => exact absurd here (note.spared condition words _ _)
  | plain c =>
      rw [Piece.commented, Idiom.standsIn_cons, List.nil_append] at here
      have read := here.resolve_right Idiom.not_standsIn_nil
      have within : first ⊆ (idiom other words').pieces s := split ▸ List.subset_append_left _ _
      rw [isSome_read?_iff near, admits_commented near' note.ends within] at read
      obtain ⟨admitted, start, inside, rest, guard, whole⟩ := read
      rcases Idiom.characters_or_hit last with ⟨t, rfl⟩ | ⟨t, found, lexeme, last, rfl⟩
      · refine .inl ⟨first, c, _, split, (isSome_read?_iff near).mpr ⟨admitted, ?_⟩⟩
        simp only [List.flatMap_map, Piece.commented, Piece.text] at whole ⊢
        exact ⟨start, inside, rest, guard, whole⟩
      · have member : .hit found lexeme ∈ (idiom other words').pieces s := by simp [split]
        obtain ⟨start', inside', removed, rfl⟩ :=
          Idiom.forall_hits (reads_guard near' words') member
        have common : (c :: t) ++ (comment ++ last.flatMap (Piece.commented comment))
            = start ++ '{' :: (inside ++ '}' :: rest) := by
          simpa [List.flatMap_map, Piece.commented] using whole
        rcases isGuard_around_old takes includes note.slash note.plain guard removed common
            (last.flatMap Piece.text) with kept | ⟨brace, before, x, opens, rfl, behind⟩
        · refine .inl ⟨first, c, _, split, (isSome_read?_iff near).mpr ⟨admitted, ?_⟩⟩
          simpa [List.flatMap_map, Piece.text] using kept
        · have braceless : '}' ∉ comment := fun member => (note.plain _ member).2 rfl
          obtain ⟨after, last, rfl, rfl, -⟩ := exists_plain_of_commented braceless behind
          refine .inr ⟨first, start, before, start' ++ '{' :: (inside' ++ ['}']), after, last, ?_,
            admitted, guard, ?_⟩
          · rw [split, ← opens]
            rfl
          · have own := List.one_le_count_iff.mpr brace
            rw [List.count_append, List.count_cons, List.count_append, List.count_singleton_self]
            omega

/-- An uncovered guard is left. -/
theorem standsIn_of_uncovers (near : condition.Near) (near' : other.Near)
    (ends : comment.getLast?.map isWord = some false)
    (uncovers : Uncovers condition words (idiom other words) comment s)
    : (idiom condition words).StandsIn none
        ((idiom other words).replace (fun _ => comment) s) [] := by
  obtain ⟨first, start, before, lexeme, after, last, split, admitted, guard, -⟩ := uncovers
  have within : first ⊆ (idiom other words).pieces s := split ▸ List.subset_append_left _ _
  refine ⟨first.flatMap (Piece.commented comment), start ++ '{' :: (before ++ (comment
    ++ (after.flatMap (Piece.commented comment) ++ '}' :: last.flatMap (Piece.commented comment)))),
    ?_, by simp, ?_⟩
  · rw [Idiom.replace_eq_commented, split]
    simp [List.flatMap_map, Piece.commented]
  · rw [List.append_nil, Option.or_none, isSome_read?_iff near, admits_commented near' ends within]
    exact ⟨admitted, start, _, last.flatMap (Piece.commented comment), guard, by simp⟩

/-- What stands outside the hits of another idiom stands in the text. -/
theorem StandsOutside.standsIn {idiom other : Idiom Unit} (outside : StandsOutside idiom other s)
    : idiom.StandsIn none s [] := by
  obtain ⟨first, c, last, split, read⟩ := outside
  refine ⟨first.flatMap Piece.text, c :: last.flatMap Piece.text, ?_, by simp, ?_⟩
  · conv => lhs; rw [← other.pieces_text s, split]
    simp [Piece.text]
  · simpa using read

/-- Nothing stands outside its own hits. -/
theorem not_standsOutside_self (idiom : Idiom Unit) : ¬ StandsOutside idiom idiom s := by
  rintro ⟨first, c, last, split, read⟩
  have unread := Idiom.read?_of_split split
  rw [List.take_zero, List.nil_append, Option.or_none] at unread
  rw [unread] at read
  cases read

/-- Where hits close one block, nothing is uncovered. -/
theorem not_uncovers {idiom : Idiom Unit}
    (single : ∀ lexeme ∈ idiom.lexemes s, lexeme.count '}' = 1)
    : ¬ Uncovers condition words idiom comment s := by
  rintro ⟨first, start, before, lexeme, after, last, split, -, -, twice⟩
  have member : lexeme ∈ idiom.lexemes s :=
    List.mem_filterMap.mpr ⟨.hit () lexeme, by simp [split], rfl⟩
  have once := single lexeme member
  omega

/-- A guard with a head that has no slash and no braces, which looks one character ahead. -/
structure Simple (condition : Scanner Unit) : Prop where
  near : condition.Near
  reads : condition.ReadsOnly fun c => c ≠ '/' ∧ NoBrace c

/-- It closes one block. -/
theorem Simple.count_close (simple : Simple condition) (words : List String) (s : List Char)
    : ∀ lexeme ∈ (idiom condition words).lexemes s, lexeme.count '}' = 1 := by
  have reads : condition.ReadsOnly NoBrace := by
    intro t found rest scanned
    obtain ⟨read, whole, each⟩ := simple.reads t found rest scanned
    exact ⟨read, whole, fun c member => (each c member).2⟩
  intro lexeme member
  exact (shape_of_lexeme noBrace_of_isBlank (noBrace_of_all (by decide)) reads _ s lexeme
    member).count_close

/-- Where simple guards are removed, and later ones need the words of earlier ones, none of them is
left, by induction on the guards.
-/
theorem not_standsIn_replaceAll {guards : List (Scanner Unit × List String)}
    (simple : ∀ guard ∈ guards, Simple guard.1)
    (includes : guards.Pairwise fun earlier later =>
      ∀ t, hasWords later.2 t = true → hasWords earlier.2 t = true)
    (note : IsNote comment) (s : List Char)
    : ∀ guard ∈ guards, ¬ (idiom guard.1 guard.2).StandsIn none
        (replaceAll (guards.map fun guard => idiom guard.1 guard.2) comment s) [] := by
  induction guards using List.reverseRecOn with
  | nil => simp
  | append_singleton guards last ih =>
      rw [List.pairwise_append] at includes
      obtain ⟨among, -, between⟩ := includes
      rw [List.forall_mem_append, List.forall_mem_singleton] at simple
      have cut : replaceAll ((guards ++ [last]).map fun guard => idiom guard.1 guard.2) comment s
          = (idiom last.1 last.2).replace (fun _ => comment)
            (replaceAll (guards.map fun guard => idiom guard.1 guard.2) comment s) := by
        simp only [replaceAll, List.map_append, List.map_cons, List.map_nil, List.foldl_append,
          List.foldl_cons, List.foldl_nil]
      rw [cut]
      intro guard member stands
      have single := simple.2.count_close last.2
        (replaceAll (guards.map fun guard => idiom guard.1 guard.2) comment s)
      rcases List.mem_append.mp member with earlier | now
      · have outside := (standsOutside_or_uncovers (simple.1 guard earlier).near simple.2.near
          (takesHead_of_slashless (simple.1 guard earlier).reads _)
          (between guard earlier last (by simp)) note stands).resolve_right (not_uncovers single)
        exact ih simple.1 among guard earlier outside.standsIn
      · obtain rfl := List.mem_singleton.mp now
        have outside := (standsOutside_or_uncovers simple.2.near simple.2.near
          (takesHead_of_slashless simple.2.reads _) (fun _ => id) note stands).resolve_right
            (not_uncovers single)
        exact not_standsOutside_self _ outside

end Guards

-----------------------------------------------------------------------------------------
-- Removing guards from a text without them
-----------------------------------------------------------------------------------------

section

variable {α : Type} {idiom : Idiom α} {comment s : List Char} {c : Char}

/-- Every hit that a comment takes the place of takes a character out of the text, if hits have it
and the comment does not, by induction on the pieces.
-/
theorem count_replace_add_length (absent : c ∉ comment)
    (each : ∀ lexeme ∈ idiom.lexemes s, c ∈ lexeme)
    : (idiom.replace (fun _ => comment) s).count c + (idiom.lexemes s).length ≤ s.count c := by
  have pieces : ∀ pieces : List (Piece α),
      (∀ lexeme ∈ pieces.filterMap Piece.lexeme?, c ∈ lexeme)
      → (pieces.flatMap (Piece.commented comment)).count c
          + (pieces.filterMap Piece.lexeme?).length
        ≤ (pieces.flatMap Piece.text).count c := by
    intro pieces each
    induction pieces with
    | nil => simp
    | cons piece pieces ih =>
        cases piece with
        | plain d =>
            have later := ih each
            simp only [List.flatMap_cons, List.filterMap_cons, Piece.lexeme?, Piece.commented,
              Piece.text, List.count_append]
            omega
        | hit found lexeme =>
            obtain ⟨member, others⟩ := List.forall_mem_cons.mp each
            have later := ih others
            have one := List.one_le_count_iff.mpr member
            have none := List.count_eq_zero.mpr absent
            simp only [List.flatMap_cons, List.filterMap_cons, Piece.lexeme?, Piece.commented,
              Piece.text, List.count_append, List.length_cons]
            omega
  have bound := pieces (idiom.pieces s) each
  rwa [idiom.pieces_text, ← Idiom.replace_eq_commented] at bound

/-- An idiom that has no hits does not occur. -/
theorem occursIn_eq_false_iff : idiom.occursIn s = false ↔ idiom.lexemes s = [] := by
  simp only [Idiom.occursIn, Idiom.findAll, Idiom.lexemes, Bool.not_eq_false', List.isEmpty_iff,
    List.filterMap_eq_nil_iff]
  refine forall₂_congr fun piece _ => ?_
  cases piece <;> simp [Piece.found?, Piece.lexeme?]

end

/-- Removing takes no character into the text, by induction on the idioms. -/
theorem count_replaceAll_le {idioms : List (Idiom Unit)} {comment : List Char} {c : Char}
    (absent : c ∉ comment) (each : ∀ idiom ∈ idioms, ∀ s, ∀ lexeme ∈ idiom.lexemes s, c ∈ lexeme)
    (s : List Char)
    : (replaceAll idioms comment s).count c ≤ s.count c := by
  induction idioms generalizing s with
  | nil => exact le_rfl
  | cons idiom idioms ih =>
      obtain ⟨first, others⟩ := List.forall_mem_cons.mp each
      have now := count_replace_add_length absent (first s)
      have later := ih others (idiom.replace (fun _ => comment) s)
      rw [replaceAll, List.foldl_cons, ← replaceAll]
      omega

/-- Where hits have a character that the comment does not, removing changes nothing exactly where
none of the idioms occurs, by induction on them.
-/
theorem replaceAll_eq_self_iff {idioms : List (Idiom Unit)} {comment s : List Char} {c : Char}
    (absent : c ∉ comment) (each : ∀ idiom ∈ idioms, ∀ s, ∀ lexeme ∈ idiom.lexemes s, c ∈ lexeme)
    : replaceAll idioms comment s = s ↔ ∀ idiom ∈ idioms, idiom.occursIn s = false := by
  induction idioms with
  | nil => simp [replaceAll]
  | cons idiom idioms ih =>
      obtain ⟨first, others⟩ := List.forall_mem_cons.mp each
      rw [List.forall_mem_cons, ← ih others, replaceAll, List.foldl_cons, ← replaceAll]
      constructor
      · intro same
        have now := count_replace_add_length absent (first s)
        have later := count_replaceAll_le absent others (idiom.replace (fun _ => comment) s)
        rw [same] at later
        have nothing : idiom.occursIn s = false :=
          occursIn_eq_false_iff.mpr (List.eq_nil_of_length_eq_zero (by omega))
        rw [Idiom.replace_of_not_occursIn nothing] at same
        exact ⟨nothing, same⟩
      · rintro ⟨nothing, same⟩
        rw [Idiom.replace_of_not_occursIn nothing, same]

-----------------------------------------------------------------------------------------
-- Range guards
-----------------------------------------------------------------------------------------

namespace RangeGuards

open Guards

/-- The axes and the bounds that they are checked against. -/
def bounds : List (String × String) :=
  [("lat", "90"), ("lon", "180")]

/-- A guard that returns. -/
def guardOf (condition : Scanner Unit) : Idiom Unit :=
  Guards.idiom condition ["return"]

/-- A guard that checks bounds. -/
def boundsGuard (check : String × String) : Idiom Unit :=
  guardOf (outOfBounds check.1 check.2)

/-- A guard that validates. -/
def validationGuard : Idiom Unit :=
  guardOf failedValidation

theorem idioms_eq : idioms = bounds.map boundsGuard ++ [validationGuard] := rfl

theorem bounds_plain
    : ∀ check ∈ bounds, ∀ c ∈ ("-.<|>" ++ check.1 ++ check.2).toList, c ≠ '/' ∧ NoBrace c := by
  simp +contextual [bounds, NoBrace, or_imp, forall_and]

theorem simple_bounds {check : String × String} (known : check ∈ bounds)
    : Simple (outOfBounds check.1 check.2) :=
  ⟨outOfBounds_near _ _,
    outOfBounds_reads slashless_of_isBlank slashless_of_isWord (bounds_plain check known)⟩

theorem isNote_comment : IsNote comment :=
  ⟨⟨_, rfl⟩, comments_noBrace.2, by decide, by decide⟩

/-- Where bounds checks are removed, none of them is left. -/
theorem not_standsIn_bounds (text : List Char)
    : ∀ check ∈ bounds, ¬ (boundsGuard check).StandsIn none
        (replaceAll (bounds.map boundsGuard) comment text) [] := by
  have simple : ∀ guard ∈ bounds.map fun check => (outOfBounds check.1 check.2, ["return"]),
      Simple guard.1 := by
    rw [List.forall_mem_map]
    exact fun check known => simple_bounds known
  have none_left := not_standsIn_replaceAll simple
    (by simp [bounds, List.pairwise_cons]) isNote_comment text
  rw [List.forall_mem_map, List.map_map] at none_left
  exact none_left

/-- The conditions of the guards that are removed. -/
def conditions : List (Scanner Unit) :=
  bounds.map (fun check => outOfBounds check.1 check.2) ++ [failedValidation]

/-- Removing validations where no bounds are checked uncovers a guard. -/
def UncoversGuard (text : List Char) : Prop :=
  ∃ condition ∈ conditions, Uncovers condition ["return"] validationGuard comment
    (replaceAll (bounds.map boundsGuard) comment text)

/-- The guards that are left are the uncovered ones. -/
theorem occursIn_rewrite_iff {condition : Scanner Unit} (known : condition ∈ conditions)
    (text : List Char)
    : (guardOf condition).occursIn (RangeGuards.rewrite text) = true
      ↔ Uncovers condition ["return"] validationGuard comment
        (replaceAll (bounds.map boundsGuard) comment text) := by
  have last : RangeGuards.rewrite text = validationGuard.replace (fun _ => comment)
      (replaceAll (bounds.map boundsGuard) comment text) := rfl
  rw [Idiom.occursIn_iff_standsIn, last]
  rcases List.mem_append.mp known with isBounds | isValidation
  · obtain ⟨check, member, rfl⟩ := List.mem_map.mp isBounds
    refine ⟨fun stands => ?_,
      standsIn_of_uncovers (outOfBounds_near _ _) failedValidation_near (by decide)⟩
    refine (standsOutside_or_uncovers (outOfBounds_near _ _) failedValidation_near
      (takesHead_of_slashless (simple_bounds member).reads _) (fun _ => id) isNote_comment
      stands).resolve_left fun outside => ?_
    exact not_standsIn_bounds text check member outside.standsIn
  · obtain rfl := List.mem_singleton.mp isValidation
    refine ⟨fun stands => ?_,
      standsIn_of_uncovers failedValidation_near failedValidation_near (by decide)⟩
    exact (standsOutside_or_uncovers failedValidation_near failedValidation_near
      takesHead_failedValidation (fun _ => id) isNote_comment stands).resolve_left
        (not_standsOutside_self _)

theorem conditions_near : ∀ condition ∈ conditions, condition.Near := by
  intro condition known
  rcases List.mem_append.mp known with isBounds | isValidation
  · obtain ⟨check, -, rfl⟩ := List.mem_map.mp isBounds
    exact outOfBounds_near _ _
  · obtain rfl := List.mem_singleton.mp isValidation
    exact failedValidation_near

/-- Removing guards changes nothing exactly where none is left. -/
theorem rewrite_eq_self_iff {text : List Char}
    : RangeGuards.rewrite text = text
      ↔ ∀ condition ∈ conditions, (guardOf condition).occursIn text = false := by
  have guards : idioms = conditions.map guardOf := rfl
  have absent : '{' ∉ comment := fun member => (comments_noBrace.2 _ member).1 rfl
  have opened : ∀ idiom ∈ conditions.map guardOf, ∀ s, ∀ lexeme ∈ idiom.lexemes s,
      '{' ∈ lexeme := by
    rw [List.forall_mem_map]
    intro condition known s
    refine Idiom.forall_lexemes (fun t _ rest scanned => ?_) s
    obtain ⟨read, rfl, start, inside, -, rfl⟩ :=
      reads_guard (conditions_near condition known) _ _ _ _ scanned
    exact ⟨_, rfl, by simp⟩
  rw [RangeGuards.rewrite, guards, replaceAll_eq_self_iff absent opened, List.forall_mem_map]

end RangeGuards

/-- Main statement: removing range guards a second time changes nothing, unless the facts authorize
it and the first time uncovers a guard. It uncovers none if every guard that it removes closes one
block.
-/
theorem rangeGuards_again (settings : Settings) (facts : Facts) (text : List Char)
    : (transform settings facts .removeRangeGuards (transform settings facts .removeRangeGuards text)
          = transform settings facts .removeRangeGuards text
        ↔ (authorizes settings facts .removeRangeGuards = true
          → ¬ RangeGuards.UncoversGuard text))
      ∧ ((∀ guard ∈ RangeGuards.removed text, guard.count '}' = 1)
        → ¬ RangeGuards.UncoversGuard text) := by
  refine ⟨?_, ?_⟩
  · rw [transform_again_iff]
    refine imp_congr_right fun _ => ?_
    rw [rewrite, rewrite, RangeGuards.rewrite_eq_self_iff, RangeGuards.UncoversGuard]
    push Not
    refine forall₂_congr fun condition known => ?_
    rw [← RangeGuards.occursIn_rewrite_iff known, Bool.not_eq_true]
  · rintro single ⟨condition, known, uncovers⟩
    refine Guards.not_uncovers (fun lexeme member => single lexeme ?_) uncovers
    rw [RangeGuards.removed, RangeGuards.idioms_eq, removed_append]
    exact List.mem_append_right _ (List.mem_append_left _ member)

/-- The facts of an area whose axes are both small. -/
def smallAxes : Facts :=
  (Facts.empty.insert (Facts.smallOf Axis.latitude.name) 1.0).insert
    (Facts.smallOf Axis.longitude.name) 1.0

/-- Guards that are not nested are removed once. -/
theorem rangeGuards_again_of_flatGuards
    : (∀ guard ∈ RangeGuards.removed flatGuards, guard.count '}' = 1)
      ∧ transform .standard smallAxes .removeRangeGuards
          (transform .standard smallAxes .removeRangeGuards flatGuards)
        = transform .standard smallAxes .removeRangeGuards flatGuards := by
  have single : ∀ guard ∈ RangeGuards.removed flatGuards, guard.count '}' = 1 := by
    decide +kernel
  obtain ⟨again, covered⟩ := rangeGuards_again .standard smallAxes flatGuards
  exact ⟨single, again.mpr fun _ => covered single⟩

/-- A bounds check around a validation with a closing brace among its arguments. -/
def bracedValidation : List Char :=
  ("if (lat < -90 || lat > 90) \x7b if (!validateCoordinates(s, '\x7d')) \x7b return; \x7d "
    ++ "return; \x7d").toList

/-- The validation is removed first, and then the bounds check around it. -/
theorem bracedValidation_removed_again
    : transform .standard smallAxes .removeRangeGuards
        (transform .standard smallAxes .removeRangeGuards bracedValidation)
      ≠ transform .standard smallAxes .removeRangeGuards bracedValidation := by
  decide +kernel

end RangeTuner.Rewrite
