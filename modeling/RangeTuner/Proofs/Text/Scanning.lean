import Mathlib
import RangeTuner.Text.Scanner

/-! What scanners read. A scanner that finds something has read a beginning of its text, and where
all its parts read characters of some kind, so does the whole. Main statements: the rules by which
this is told of a scanner from its parts.
-/

namespace RangeTuner.Text.Scanner

variable {α β : Type} {allowed : Char → Prop}

/-- Whatever the scanner finds has a property. -/
def Finds (holds : α → Prop) (scan : Scanner α) : Prop :=
  ∀ s found rest, scan s = some (found, rest) → holds found

/-- Whatever the scanner finds, it has read a beginning of the text that is related to it. -/
def Reads (related : α → List Char → Prop) (scan : Scanner α) : Prop :=
  ∀ s found rest, scan s = some (found, rest)
    → ∃ read, s = read ++ rest ∧ related found read

/-- Whatever the scanner finds, it has read a beginning of the text that is made of allowed
characters.
-/
def ReadsOnly (allowed : Char → Prop) (scan : Scanner α) : Prop :=
  scan.Reads fun _ read => ∀ c ∈ read, allowed c

/-- Two scanners, one after the other, find something where both do. -/
theorem bind_eq_some_iff {scan : Scanner α} {next : α → Scanner β} {s rest : List Char}
    {found : β}
    : (scan >>= next) s = some (found, rest)
      ↔ ∃ first middle, scan s = some (first, middle)
        ∧ next first middle = some (found, rest) := by
  simp [bind, StateT.bind, Option.bind_eq_some_iff]

theorem guard_eq_some_iff {holds : Prop} [Decidable holds] {s rest : List Char}
    : (guard holds : Scanner Unit) s = some ((), rest) ↔ holds ∧ rest = s := by
  by_cases h : holds
  · simp [guard, h, pure, StateT.pure, eq_comm]
  · simp [guard, h, failure, Alternative.failure, StateT.failure]

theorem literal_eq_some_iff {text : String} {s rest : List Char}
    : literal text s = some ((), rest) ↔ s = text.toList ++ rest := by
  simp [literal, after?_eq_some_iff]

/-- One character of a class is the first of the text. -/
theorem one_eq_some_iff {p : Char → Bool} {s rest : List Char} {c : Char}
    : one p s = some (c, rest) ↔ s = c :: rest ∧ p c = true := by
  cases s with
  | nil => simp [one]
  | cons first s =>
      by_cases member : p first = true
      · simp only [one, member, if_true, Option.some.injEq, Prod.mk.injEq, List.cons.injEq]
        exact ⟨fun same => ⟨same, same.1 ▸ member⟩, And.left⟩
      · simp only [one, member, Bool.false_eq_true, if_false, List.cons.injEq]
        exact ⟨nofun, fun ⟨⟨same, _⟩, holds⟩ => absurd (same ▸ holds) member⟩

/-- A run stops where its class does. -/
theorem run_eq_some_iff {p : Char → Bool} {s found rest : List Char}
    : run p s = some (found, rest)
      ↔ s = found ++ rest ∧ (∀ c ∈ found, p c = true) ∧ ∀ c ∈ rest.head?, p c = false := by
  constructor
  · rintro ⟨⟩
    refine ⟨List.takeWhile_append_dropWhile.symm,
      fun c member => List.all_eq_true.mp List.all_takeWhile c member, fun c first => ?_⟩
    have stops := List.head?_dropWhile_not p s
    rw [Option.mem_def.mp first] at stops
    exact stops
  · rintro ⟨rfl, members, stops⟩
    have here : rest.takeWhile p = [] ∧ rest.dropWhile p = rest := by
      cases rest with
      | nil => exact ⟨rfl, rfl⟩
      | cons c rest => simp [stops c rfl]
    simp [run, List.takeWhile_append_of_pos members, List.dropWhile_append_of_pos members, here]

/-- A text is cut where its class stops. -/
theorem span_append {p : Char → Bool} {found rest : List Char}
    (members : ∀ c ∈ found, p c = true) (stops : ∀ c ∈ rest.head?, p c = false)
    : (found ++ rest).takeWhile p = found ∧ (found ++ rest).dropWhile p = rest :=
  Prod.mk.inj (Option.some.inj (run_eq_some_iff.mpr ⟨rfl, members, stops⟩))

/-- Of two scanners, the second is asked where the first finds nothing. -/
theorem orElse_eq_some_iff {first second : Scanner α} {s : List Char} {result : α × List Char}
    : (first <|> second) s = some result
      ↔ first s = some result ∨ first s = none ∧ second s = some result := by
  cases scanned : first s with
  | none =>
      simp [HOrElse.hOrElse, OrElse.orElse, Alternative.orElse, StateT.orElse, scanned]
  | some other =>
      simp [HOrElse.hOrElse, OrElse.orElse, Alternative.orElse, StateT.orElse, scanned]

/-- Of two scanners, what either of them finds is found. -/
theorem orElse_eq_some {first second : Scanner α} {s : List Char} {result : α × List Char}
    (h : (first <|> second) s = some result)
    : first s = some result ∨ second s = some result :=
  (orElse_eq_some_iff.mp h).imp_right And.right

theorem possibly_eq_some_iff {scan : Scanner Unit} {s rest : List Char}
    : possibly scan s = some ((), rest)
      ↔ scan s = some ((), rest) ∨ scan s = none ∧ rest = s := by
  rw [possibly, orElse_eq_some_iff]
  simp [pure, StateT.pure, eq_comm]

/-- One of some texts is read. -/
theorem oneOf_eq_some {texts : List String} {s rest : List Char}
    (read : oneOf texts s = some ((), rest))
    : ∃ text ∈ texts, s = text.toList ++ rest := by
  induction texts with
  | nil => cases read
  | cons text texts ih =>
      rcases orElse_eq_some read with first | later
      · exact ⟨text, List.mem_cons_self, literal_eq_some_iff.mp first⟩
      · obtain ⟨other, member, same⟩ := ih later
        exact ⟨other, List.mem_cons_of_mem _ member, same⟩

/-- Nothing is read where no word goes on. -/
theorem wordEnd_eq_some_iff {s rest : List Char}
    : wordEnd s = some ((), rest) ↔ rest = s ∧ s.head?.any isWord = false := by
  cases s with
  | nil => simp [wordEnd, eq_comm]
  | cons c s => cases inWord : isWord c <;> simp [wordEnd, inWord, eq_comm]

/-- Where at least one character is asked for, the run is the same, if there is one. -/
theorem run1_eq_some_iff {p : Char → Bool} {s found rest : List Char}
    : run1 p s = some (found, rest) ↔ found ≠ [] ∧ run p s = some (found, rest) := by
  have filled_iff : (!found.isEmpty) = true ↔ found ≠ [] := by simp
  constructor
  · intro scanned
    obtain ⟨read, middle, ran, behind⟩ := bind_eq_some_iff.mp scanned
    obtain ⟨_, last, checked, done⟩ := bind_eq_some_iff.mp behind
    obtain ⟨filled, rfl⟩ := guard_eq_some_iff.mp checked
    obtain ⟨rfl, rfl⟩ := Prod.mk.inj (Option.some.inj done)
    exact ⟨filled_iff.mp filled, ran⟩
  · rintro ⟨filled, ran⟩
    refine bind_eq_some_iff.mpr ⟨found, rest, ran, bind_eq_some_iff.mpr ⟨(), rest, ?_, rfl⟩⟩
    exact guard_eq_some_iff.mpr ⟨filled_iff.mpr filled, rfl⟩

theorem blanks_eq_some_iff {s rest : List Char}
    : blanks s = some ((), rest) ↔ ∃ gap, run isBlank s = some (gap, rest) := by
  simp [blanks, bind_eq_some_iff, pure, StateT.pure]

theorem blanks1_eq_some_iff {s rest : List Char}
    : blanks1 s = some ((), rest) ↔ ∃ gap ≠ [], run isBlank s = some (gap, rest) := by
  simp [blanks1, bind_eq_some_iff, run1_eq_some_iff, pure, StateT.pure]

namespace Finds

variable {holds : β → Prop}

theorem pure {found : β} (held : holds found)
    : (Pure.pure found : Scanner β).Finds holds := by
  rintro s _ rest ⟨⟩
  exact held

theorem bind {scan : Scanner α} {next : α → Scanner β} {between : α → Prop}
    (first : scan.Finds between) (second : ∀ found, between found → (next found).Finds holds)
    : (scan >>= next).Finds holds := by
  intro s found rest h
  obtain ⟨middle, _, began, ended⟩ := bind_eq_some_iff.mp h
  exact second middle (first _ _ _ began) _ _ _ ended

/-- What is found last does not depend on what is found before. -/
theorem after {scan : Scanner α} {next : α → Scanner β}
    (second : ∀ found, (next found).Finds holds)
    : (scan >>= next).Finds holds :=
  bind (fun _ _ _ _ => trivial) fun found _ => second found

end Finds

namespace Reads

variable {related : α → List Char → Prop}

/-- The second scanner goes on with what the first one found and read. -/
theorem bind {scan : Scanner α} {next : α → Scanner β} {whole : β → List Char → Prop}
    (first : scan.Reads related)
    (second : ∀ found read, related found read
      → (next found).Reads fun last more => whole last (read ++ more))
    : (scan >>= next).Reads whole := by
  intro s found rest h
  obtain ⟨between, middle, began, ended⟩ := bind_eq_some_iff.mp h
  obtain ⟨start, rfl, relates⟩ := first _ _ _ began
  obtain ⟨finish, rfl, holds⟩ := second between start relates _ _ _ ended
  exact ⟨start ++ finish, (List.append_assoc ..).symm, holds⟩

theorem pure {found : α} (holds : related found [])
    : (Pure.pure found : Scanner α).Reads related := by
  rintro s found rest ⟨⟩
  exact ⟨[], rfl, holds⟩

/-- A check reads nothing and says that it holds. -/
theorem guard (holds : Prop) [Decidable holds]
    : (guard holds : Scanner Unit).Reads fun _ read => holds ∧ read = [] := by
  intro s found rest h
  obtain ⟨held, rfl⟩ := guard_eq_some_iff.mp h
  exact ⟨[], rfl, held, rfl⟩

theorem failure : (Alternative.failure : Scanner α).Reads related := by
  rintro s found rest ⟨⟩

theorem literal (text : String)
    : (literal text).Reads fun _ read => read = text.toList :=
  fun _ _ _ h => ⟨text.toList, literal_eq_some_iff.mp h, rfl⟩

/-- A run is found as it is read, and has characters of its class. -/
theorem run (p : Char → Bool)
    : (run p).Reads fun found read => read = found ∧ ∀ c ∈ found, p c = true := by
  rintro s found rest ⟨⟩
  exact ⟨s.takeWhile p, List.takeWhile_append_dropWhile.symm, rfl,
    fun c member => List.all_eq_true.mp List.all_takeWhile c member⟩

theorem orElse {first second : Scanner α} (reads : first.Reads related)
    (reads' : second.Reads related)
    : (first <|> second).Reads related := by
  intro s found rest h
  rcases orElse_eq_some h with taken | taken
  · exact reads _ _ _ taken
  · exact reads' _ _ _ taken

/-- A lexeme is found with what was read. -/
theorem lexeme {scan : Scanner α} (reads : scan.Reads related)
    : (lexeme scan).Reads fun found read => found.2 = read ∧ related found.1 read := by
  intro s found rest h
  obtain ⟨⟨result, tail⟩, scanned, same⟩ := Option.map_eq_some_iff.mp h
  obtain ⟨rfl, rfl⟩ := Prod.mk.inj same
  obtain ⟨read, rfl, relates⟩ := reads _ _ _ scanned
  exact ⟨read, rfl, by simp, relates⟩

theorem run1 (p : Char → Bool)
    : (run1 p).Reads fun found read => read = found ∧ ∀ c ∈ found, p c = true := by
  intro s found rest h
  exact run p s found rest (run1_eq_some_iff.mp h).2

end Reads

namespace ReadsOnly

/-- What one scanner and then the next read is put together. -/
theorem bind {scan : Scanner α} {next : α → Scanner β} (first : ReadsOnly allowed scan)
    (second : ∀ found, ReadsOnly allowed (next found))
    : ReadsOnly allowed (scan >>= next) := by
  intro s found rest h
  obtain ⟨between, middle, began, ended⟩ := bind_eq_some_iff.mp h
  obtain ⟨start, rfl, startAllowed⟩ := first _ _ _ began
  obtain ⟨finish, rfl, finishAllowed⟩ := second between _ _ _ ended
  refine ⟨start ++ finish, (List.append_assoc ..).symm, fun c member => ?_⟩
  rcases List.mem_append.mp member with inStart | inFinish
  · exact startAllowed c inStart
  · exact finishAllowed c inFinish

theorem pure (found : α) : ReadsOnly allowed (Pure.pure found : Scanner α) := by
  rintro s found rest ⟨⟩
  exact ⟨[], rfl, by simp⟩

/-- A check reads nothing. -/
theorem guard {holds : Prop} [Decidable holds]
    : ReadsOnly allowed (guard holds : Scanner Unit) := by
  intro s found rest h
  obtain ⟨-, rfl⟩ := guard_eq_some_iff.mp h
  exact ⟨[], rfl, by simp⟩

theorem literal {text : String} (all : ∀ c ∈ text.toList, allowed c)
    : ReadsOnly allowed (literal text) := by
  intro s found rest h
  exact ⟨text.toList, literal_eq_some_iff.mp h, all⟩

theorem run {p : Char → Bool} (all : ∀ c, p c = true → allowed c)
    : ReadsOnly allowed (run p) := by
  rintro s found rest ⟨⟩
  refine ⟨s.takeWhile p, List.takeWhile_append_dropWhile.symm, fun c member => ?_⟩
  exact all c (List.all_eq_true.mp List.all_takeWhile c member)

theorem one {p : Char → Bool} (all : ∀ c, p c = true → allowed c)
    : ReadsOnly allowed (one p) := by
  intro s found rest h
  obtain ⟨rfl, member⟩ := one_eq_some_iff.mp h
  exact ⟨[found], rfl, by simpa using all found member⟩

theorem run1 {p : Char → Bool} (all : ∀ c, p c = true → allowed c)
    : ReadsOnly allowed (run1 p) :=
  (run all).bind fun _ => guard.bind fun _ => pure _

theorem blanks (all : ∀ c, isBlank c = true → allowed c)
    : ReadsOnly allowed blanks :=
  (run all).bind fun _ => pure _

theorem spaced {text : String} (blank : ∀ c, isBlank c = true → allowed c)
    (all : ∀ c ∈ text.toList, allowed c)
    : ReadsOnly allowed (spaced text) :=
  (blanks blank).bind fun _ => (literal all).bind fun _ => blanks blank

/-- What may be missing reads what it would read. -/
theorem possibly {scan : Scanner Unit} (reads : ReadsOnly allowed scan)
    : ReadsOnly allowed (possibly scan) :=
  Reads.orElse reads (pure ())

end ReadsOnly

/-- Up to a closing character, everything else and the closing character are read. -/
theorem upTo_eq_some_iff {close : Char} {s inside rest : List Char}
    : upTo close s = some (inside, rest) ↔ s = inside ++ close :: rest ∧ close ∉ inside := by
  constructor
  · intro h
    obtain ⟨_, middle, ran, h⟩ := bind_eq_some_iff.mp h
    obtain ⟨c, tail, closed, h⟩ := bind_eq_some_iff.mp h
    cases h
    obtain ⟨rfl, members, -⟩ := run_eq_some_iff.mp ran
    obtain ⟨rfl, isClose⟩ := one_eq_some_iff.mp closed
    obtain rfl := beq_iff_eq.mp isClose
    exact ⟨rfl, fun member => by simpa using members _ member⟩
  · rintro ⟨rfl, absent⟩
    have ran : run (· ≠ close) (inside ++ close :: rest) = some (inside, close :: rest) := by
      refine run_eq_some_iff.mpr ⟨rfl, fun c member => ?_, by simp⟩
      exact decide_eq_true (ne_of_mem_of_not_mem member absent)
    refine bind_eq_some_iff.mpr ⟨inside, close :: rest, ran, ?_⟩
    exact bind_eq_some_iff.mpr ⟨close, rest, one_eq_some_iff.mpr ⟨rfl, by simp⟩, rfl⟩

theorem Reads.upTo (close : Char)
    : (upTo close).Reads fun inside read => read = inside ++ [close] := by
  intro s inside rest h
  obtain ⟨rfl, -⟩ := upTo_eq_some_iff.mp h
  exact ⟨inside ++ [close], by simp, rfl⟩

end RangeTuner.Text.Scanner

namespace RangeTuner.Text

/-- A word that is being read ends at a character outside words, by induction on the text. -/
theorem wordsFrom_append_cons {c : Char} (apart : isWord c = false) (word s t : List Char)
    : wordsFrom word (s ++ c :: t) = wordsFrom word s ++ words t := by
  fun_induction wordsFrom word s with
  | case1 word empty => simp [wordsFrom, apart, empty, words]
  | case2 word filled => simp [wordsFrom, apart, filled, words]
  | case3 word d s inWord ih => simp [wordsFrom, inWord, ih]
  | case4 word d s outside empty ih => simp [wordsFrom, outside, empty, ih]
  | case5 word d s outside filled ih => simp [wordsFrom, outside, filled, ih]

/-- The words of a text with a character outside words are those before and behind it. -/
theorem words_append_cons {c : Char} (apart : isWord c = false) (s t : List Char)
    : words (s ++ c :: t) = words s ++ words t :=
  wordsFrom_append_cons apart [] s t

/-- Words that stand behind a character outside words stand in the whole text. -/
theorem hasWords_append_cons {wanted : List String} {c : Char} {t : List Char}
    (apart : isWord c = false) (s : List Char) (found : hasWords wanted t = true)
    : hasWords wanted (s ++ c :: t) = true := by
  unfold hasWords at found ⊢
  rw [words_append_cons apart]
  exact List.isSublist_iff_sublist.mpr
    ((List.isSublist_iff_sublist.mp found).trans (List.sublist_append_right _ _))

end RangeTuner.Text
