import RangeTuner.Proofs.Text.Balance
import RangeTuner.Proofs.Text.Lookahead
import RangeTuner.Rewrite.Guards

/-! The shape of guards. A guard is read as a head, the opening brace of its block, and the block up
to the first closing brace. Main statement: every text that is read as a guard has this shape, and
the heads of null guards hold no braces.
-/

namespace RangeTuner.Rewrite

open RangeTuner.Text

-----------------------------------------------------------------------------------------
-- The shape of a guard
-----------------------------------------------------------------------------------------

/-- The text is a head of allowed characters and a block without a closing brace inside. -/
def GuardShape (allowed : Char → Prop) (guard : List Char) : Prop :=
  ∃ head inside, guard = head ++ '{' :: (inside ++ ['}']) ∧ (∀ c ∈ head, allowed c)
    ∧ '}' ∉ inside

/-- A guard opens at least one block. -/
theorem GuardShape.one_le_count {allowed : Char → Prop} {guard : List Char}
    (shape : GuardShape allowed guard)
    : 1 ≤ guard.count '{' := by
  obtain ⟨head, inside, rfl, -, -⟩ := shape
  simp only [List.count_append, List.count_cons_self]
  omega

/-- A guard whose head has no braces closes one block. -/
theorem GuardShape.count_close {guard : List Char} (shape : GuardShape NoBrace guard)
    : guard.count '}' = 1 := by
  obtain ⟨head, inside, rfl, plain, unclosed⟩ := shape
  have headless : head.count '}' = 0 := List.count_eq_zero.mpr fun member => (plain _ member).2 rfl
  have insideless : inside.count '}' = 0 := List.count_eq_zero.mpr unclosed
  simp [List.count_append, headless, insideless]

/-- A guard that closes one block opens no fewer, and as many exactly when it opens one. -/
theorem GuardShape.excess_nonneg {allowed : Char → Prop} {guard : List Char}
    (shape : GuardShape allowed guard) (closes : guard.count '}' = 1)
    : 0 ≤ excess guard ∧ (excess guard = 0 ↔ guard.count '{' = 1) := by
  have opens := shape.one_le_count
  rw [excess_eq_count, closes]
  omega

namespace Guards

/-- The head of a guard, up to its block. -/
def head (condition : Scanner Unit) : Scanner Unit := do
  opening
  condition
  Scanner.blanks
  Scanner.literal ")"
  Scanner.blanks

/-- The block of a guard, from its opening brace. -/
def body (words : List String) : Scanner Unit := do
  Scanner.literal "\x7b"
  let inside ← Scanner.upTo '}'
  guard (hasWords words inside)

/-- A guard is read as its head and its block. -/
theorem idiom_scan (condition : Scanner Unit) (words : List String)
    : (idiom condition words).scan = head condition >>= fun _ => body words := by
  simp only [idiom, block, head, body, bind_assoc]

variable {allowed : Char → Prop}

/-- The head of a guard reads what its condition may read. -/
theorem head_reads (blank : ∀ c, isBlank c = true → allowed c)
    (signs : ∀ c ∈ "if()".toList, allowed c) {condition : Scanner Unit}
    (reads : condition.ReadsOnly allowed)
    : (head condition).ReadsOnly allowed := by
  have blanks : Scanner.blanks.ReadsOnly allowed := .blanks blank
  have sign : ∀ text : String, text.toList ⊆ "if()".toList
      → (Scanner.literal text).ReadsOnly allowed :=
    fun text within => .literal fun c member => signs c (within member)
  have start : opening.ReadsOnly allowed :=
    (sign "if" (by simp)).bind fun _ => blanks.bind fun _ =>
      (sign "(" (by simp)).bind fun _ => blanks
  exact start.bind fun _ => reads.bind fun _ => blanks.bind fun _ =>
    (sign ")" (by simp)).bind fun _ => blanks

/-- A guard has the shape of one. -/
theorem shape_of_scan (blank : ∀ c, isBlank c = true → allowed c)
    (signs : ∀ c ∈ "if()".toList, allowed c) {condition : Scanner Unit}
    (reads : condition.ReadsOnly allowed) (words : List String) {s rest : List Char}
    (scanned : (idiom condition words).scan s = some ((), rest))
    : ∃ read, s = read ++ rest ∧ GuardShape allowed read := by
  rw [idiom_scan] at scanned
  obtain ⟨_, atBlock, readHead, readBody⟩ := Scanner.bind_eq_some_iff.mp scanned
  obtain ⟨start, rfl, plain⟩ := head_reads blank signs reads _ _ _ readHead
  obtain ⟨_, afterBrace, opened, readBody⟩ := Scanner.bind_eq_some_iff.mp readBody
  obtain ⟨inside, afterBlock, closed, checked⟩ := Scanner.bind_eq_some_iff.mp readBody
  obtain ⟨-, rfl⟩ := Scanner.guard_eq_some_iff.mp checked
  obtain ⟨rfl, unclosed⟩ := Scanner.upTo_eq_some_iff.mp closed
  obtain rfl := Scanner.literal_eq_some_iff.mp opened
  exact ⟨start ++ '{' :: (inside ++ ['}']), by simp, start, inside, rfl, plain, unclosed⟩

/-- Every hit of a guard has the shape of one. -/
theorem shape_of_lexeme (blank : ∀ c, isBlank c = true → allowed c)
    (signs : ∀ c ∈ "if()".toList, allowed c) {condition : Scanner Unit}
    (reads : condition.ReadsOnly allowed) (words : List String) (text : List Char)
    : ∀ lexeme ∈ (idiom condition words).lexemes text, GuardShape allowed lexeme :=
  Idiom.forall_lexemes (fun _ _ _ => shape_of_scan blank signs reads words) text

-----------------------------------------------------------------------------------------
-- The conditions of guards
-----------------------------------------------------------------------------------------

theorem noBrace_of_isBlank (c : Char) (blank : isBlank c = true) : NoBrace c := by
  constructor <;>
    · rintro rfl
      exact absurd blank (by decide)

theorem noBrace_of_isWord (c : Char) (inWord : isWord c = true) : NoBrace c := by
  constructor <;>
    · rintro rfl
      exact absurd inWord (by decide)

section

variable (blank : ∀ c, isBlank c = true → allowed c) (word : ∀ c, isWord c = true → allowed c)
include blank word

theorem negatedWord_reads (sign : allowed '!')
    : negatedWord.ReadsOnly allowed :=
  (Scanner.ReadsOnly.literal (by simpa using sign)).bind fun _ =>
    (Scanner.ReadsOnly.blanks blank).bind fun _ => (Scanner.ReadsOnly.run1 word).bind fun _ =>
      .pure _

theorem eitherNull_reads (sign : allowed '!') (bar : allowed '|')
    : eitherNull.ReadsOnly allowed :=
  (negatedWord_reads blank word sign).bind fun _ =>
    (Scanner.ReadsOnly.spaced blank (by simpa using bar)).bind fun _ =>
      negatedWord_reads blank word sign

theorem equalsNull_reads (sign : allowed '=')
    : equalsNull.ReadsOnly allowed := by
  have letters : ∀ c ∈ "NULL".toList, allowed c := fun c member =>
    word c (List.all_eq_true.mp (by decide : "NULL".toList.all isWord = true) c member)
  exact (Scanner.ReadsOnly.run1 word).bind fun _ =>
    (Scanner.ReadsOnly.spaced blank (by simpa using sign)).bind fun _ => .literal letters

end

theorem outOfBounds_reads {axis bound : String} (blank : ∀ c, isBlank c = true → allowed c)
    (word : ∀ c, isWord c = true → allowed c)
    (signs : ∀ c ∈ ("-.<|>" ++ axis ++ bound).toList, allowed c)
    : (outOfBounds axis bound).ReadsOnly allowed := by
  simp only [String.toList_append, List.forall_mem_append] at signs
  obtain ⟨⟨sign, letters⟩, figures⟩ := signs
  have literal : ∀ text : String, text.toList ⊆ "-.<|>".toList
      → (Scanner.literal text).ReadsOnly allowed :=
    fun text within => .literal fun c member => sign c (within member)
  have axis : (axisWord axis).ReadsOnly allowed :=
    (Scanner.ReadsOnly.literal letters).bind fun _ =>
      (Scanner.ReadsOnly.run word).bind fun _ => .pure _
  have zeros : (Scanner.run (· == '0')).ReadsOnly allowed :=
    .run fun c zero => word c (by rw [beq_iff_eq.mp zero]; decide)
  have text : ∀ bound : String, (∀ c ∈ bound.toList, allowed c)
      → (boundText bound).ReadsOnly allowed := fun bound figures =>
    (Scanner.ReadsOnly.literal figures).bind fun _ =>
      .possibly ((literal "." (by simp)).bind fun _ => zeros.bind fun _ => .pure _)
  have spaced : ∀ text : String, text.toList ⊆ "-.<|>".toList
      → (Scanner.spaced text).ReadsOnly allowed :=
    fun text within => .spaced blank fun c member => sign c (within member)
  have lower : ∀ c ∈ ("-" ++ bound).toList, allowed c := by
    rw [String.toList_append, List.forall_mem_append]
    exact ⟨fun c member => sign c ((by simp : "-".toList ⊆ "-.<|>".toList) member), figures⟩
  exact axis.bind fun _ => (spaced "<" (by simp)).bind fun _ => (text _ lower).bind fun _ =>
    (spaced "||" (by simp)).bind fun _ => axis.bind fun _ =>
      (spaced ">" (by simp)).bind fun _ => text bound figures

theorem failedValidation_reads : failedValidation.ReadsOnly fun _ => True := by
  have literal : ∀ text, (Scanner.literal text).ReadsOnly fun _ => True :=
    fun text => .literal (by simp)
  have blanks : Scanner.blanks.ReadsOnly fun _ => True := .blanks (by simp)
  have arguments : (Scanner.upTo ')').ReadsOnly fun _ => True :=
    (Scanner.ReadsOnly.run (by simp)).bind fun _ =>
      (Scanner.ReadsOnly.one (by simp)).bind fun _ => .pure _
  exact (literal "!").bind fun _ => blanks.bind fun _ =>
    (Scanner.ReadsOnly.run1 (by simp)).bind fun _ => Scanner.ReadsOnly.guard.bind fun _ =>
      blanks.bind fun _ => (literal "(").bind fun _ => arguments.bind fun _ => .pure _

-----------------------------------------------------------------------------------------
-- What makes a guard
-----------------------------------------------------------------------------------------

/-- The text is read as a head in front of a brace. -/
def IsHead (condition : Scanner Unit) (start : List Char) : Prop :=
  head condition (start ++ ['{']) = some ((), ['{'])

/-- A head with the condition and what stands in a block behind it make a guard: the block has the
words, and is closed by the first closing brace.
-/
structure IsGuard (condition : Scanner Unit) (words : List String) (start inside : List Char)
    : Prop where
  head : IsHead condition start
  unclosed : '}' ∉ inside
  words : hasWords words inside = true

theorem head_near {condition : Scanner Unit} (near : condition.Near)
    : (head condition).Near := by
  have start : opening.Near := (Scanner.Near.literal _).bind fun _ => Scanner.Near.blanks.bind
    fun _ => (Scanner.Near.literal _).bind fun _ => .blanks
  exact start.bind fun _ => near.bind fun _ => Scanner.Near.blanks.bind fun _ =>
    (Scanner.Near.literal _).bind fun _ => .blanks

theorem negatedWord_near : negatedWord.Near :=
  (Scanner.Near.literal _).bind fun _ => Scanner.Near.blanks.bind fun _ =>
    Scanner.Near.word.bind fun _ => .pure _

theorem eitherNull_near : eitherNull.Near :=
  negatedWord_near.bind fun _ => (Scanner.Near.spaced _).bind fun _ => negatedWord_near

theorem equalsNull_near : equalsNull.Near :=
  Scanner.Near.word.bind fun _ => (Scanner.Near.spaced _).bind fun _ => .literal _

theorem outOfBounds_near (axis bound : String) : (outOfBounds axis bound).Near := by
  have word : (axisWord axis).Near :=
    (Scanner.Near.literal _).bind fun _ => (Scanner.Near.run _).bind fun _ => .pure _
  have text : ∀ bound, (boundText bound).Near := by
    refine fun bound => (Scanner.Near.literal _).bind fun _ => .possibly
      ((Scanner.Near.literal _).bind fun _ => (Scanner.Near.run _).bind fun _ => .pure _) ?_
    intro s t same unread
    have point : ∀ s : List Char, (do
          Scanner.literal "."
          let _ ← Scanner.run (· == '0')) s = none
        ↔ s.head? ≠ some '.' := by
      intro s
      cases s with
      | nil => simp [bind, StateT.bind, Scanner.literal, after?]
      | cons c s =>
          by_cases isPoint : c = '.'
          · subst isPoint
            exact iff_of_false (Option.some_ne_none _) (not_not_intro rfl)
          · simp [bind, StateT.bind, Scanner.literal, after?, isPoint, Ne.symm isPoint]
    exact (point t).mpr (same ▸ (point s).mp unread)
  exact word.bind fun _ => (Scanner.Near.spaced _).bind fun _ => (text _).bind fun _ =>
    (Scanner.Near.spaced _).bind fun _ => word.bind fun _ => (Scanner.Near.spaced _).bind fun _ =>
      text _

theorem failedValidation_near : failedValidation.Near :=
  (Scanner.Near.literal _).bind fun _ => Scanner.Near.blanks.bind fun _ =>
    Scanner.Near.word.bind fun _ => Scanner.Near.guard.bind fun _ =>
      Scanner.Near.blanks.bind fun _ => (Scanner.Near.literal _).bind fun _ =>
        (Scanner.Near.upTo _).bind fun _ => .pure _

/-- The guards of a condition that looks one character ahead are what the idiom finds, whatever
follows them.
-/
theorem scan_eq_some_iff {condition : Scanner Unit} (near : condition.Near)
    {words : List String} {s rest : List Char}
    : (idiom condition words).scan s = some ((), rest)
      ↔ ∃ start inside, IsGuard condition words start inside
        ∧ s = start ++ '{' :: (inside ++ '}' :: rest) := by
  have headed := head_near near
  rw [idiom_scan]
  constructor
  · intro scanned
    obtain ⟨_, atBlock, readHead, readBody⟩ := Scanner.bind_eq_some_iff.mp scanned
    obtain ⟨start, rfl, -⟩ := headed.reads _ _ _ readHead
    obtain ⟨_, afterBrace, opened, readBody⟩ := Scanner.bind_eq_some_iff.mp readBody
    obtain ⟨inside, afterBlock, closed, checked⟩ := Scanner.bind_eq_some_iff.mp readBody
    obtain ⟨found, rfl⟩ := Scanner.guard_eq_some_iff.mp checked
    obtain ⟨rfl, unclosed⟩ := Scanner.upTo_eq_some_iff.mp closed
    obtain rfl := Scanner.literal_eq_some_iff.mp opened
    exact ⟨start, inside, ⟨headed.again readHead rfl, unclosed, found⟩, rfl⟩
  · rintro ⟨start, inside, ⟨starts, unclosed, found⟩, rfl⟩
    have readBody : body words ('{' :: (inside ++ '}' :: rest)) = some ((), rest) := by
      refine Scanner.bind_eq_some_iff.mpr ⟨(), inside ++ '}' :: rest, rfl, ?_⟩
      exact Scanner.bind_eq_some_iff.mpr ⟨inside, rest,
        Scanner.upTo_eq_some_iff.mpr ⟨rfl, unclosed⟩,
        Scanner.guard_eq_some_iff.mpr ⟨found, rfl⟩⟩
    exact Scanner.bind_eq_some_iff.mpr ⟨(), _, headed.again starts rfl, readBody⟩

/-- Every hit is a guard. -/
theorem reads_guard {condition : Scanner Unit} (near : condition.Near) (words : List String)
    : (idiom condition words).scan.Reads fun _ read =>
        ∃ start inside, IsGuard condition words start inside
          ∧ read = start ++ '{' :: (inside ++ ['}']) := by
  intro s _ rest scanned
  obtain ⟨start, inside, guard, rfl⟩ := (scan_eq_some_iff near).mp scanned
  exact ⟨start ++ '{' :: (inside ++ ['}']), by simp, start, inside, guard, rfl⟩

end Guards

end RangeTuner.Rewrite
