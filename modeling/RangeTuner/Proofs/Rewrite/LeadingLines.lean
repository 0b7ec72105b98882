import RangeTuner.Proofs.Rewrite.ConstantsPlace
import RangeTuner.Proofs.Text.Lexemes
import RangeTuner.Proofs.Text.Places

/-! The lines without code that a text starts with, and the directives among them. Main statements:
the scanners read these lines and nothing else, the prologue of a text is the one run of them that
it starts with, and the constants follow the last directive of that run.
-/

namespace RangeTuner.Rewrite.ZoneConstants

open RangeTuner.Text

variable {s g line tail rest : List Char}

-----------------------------------------------------------------------------------------
-- Parts of a line
-----------------------------------------------------------------------------------------

/-- Blanks and tabulators. -/
def IsGap (s : List Char) : Prop :=
  ∀ c ∈ s, c = ' ' ∨ c = '\t'

/-- The end of a line: its line feed, or nothing at the end of the text. -/
def IsLineEnd (tail rest : List Char) : Prop :=
  tail = ['\n'] ∨ tail = [] ∧ rest = []

/-- What follows a gap that goes no further. -/
abbrev StopsGap (rest : List Char) : Prop :=
  ∀ c ∈ rest.head?, c ≠ ' ' ∧ c ≠ '\t'

theorem IsLineEnd.head?_eq (ends : IsLineEnd tail rest) : ∀ c ∈ (tail ++ rest).head?, c = '\n' := by
  rcases ends with rfl | ⟨rfl, rfl⟩
  · simp
  · exact nofun

theorem IsLineEnd.stopsGap (ends : IsLineEnd tail rest) : StopsGap (tail ++ rest) := by
  intro c first
  rw [ends.head?_eq c first]
  decide

theorem gap_eq_some_iff
    : gap s = some ((), rest) ↔ ∃ g, s = g ++ rest ∧ IsGap g ∧ StopsGap rest := by
  have reads : gap s = some ((), rest)
      ↔ ∃ g, Scanner.run (fun c => c == ' ' || c == '\t') s = some (g, rest) := by
    simp [gap, Scanner.run, bind, StateT.bind, pure, StateT.pure]
  simp [reads, Scanner.run_eq_some_iff, IsGap, StopsGap]

theorem lineRest_eq_some_iff
    : lineRest s = some ((), rest)
      ↔ ∃ l, s = l ++ rest ∧ '\n' ∉ l ∧ ∀ c ∈ rest.head?, c = '\n' := by
  have reads : lineRest s = some ((), rest) ↔ ∃ l, Scanner.run (· ≠ '\n') s = some (l, rest) := by
    simp [lineRest, Scanner.run, bind, StateT.bind, pure, StateT.pure]
  have visible : ∀ l : List Char, (∀ c ∈ l, decide (c ≠ '\n') = true) ↔ '\n' ∉ l := by
    intro l
    simp only [decide_eq_true_eq]
    exact ⟨fun all member => all _ member rfl,
      fun absent c member => ne_of_mem_of_not_mem member absent⟩
  simp only [reads, Scanner.run_eq_some_iff, visible]
  simp

theorem lineEnd_eq_some_iff
    : lineEnd s = some ((), rest) ↔ ∃ tail, s = tail ++ rest ∧ IsLineEnd tail rest := by
  constructor
  · intro read
    rcases lineEnd_eq_some read with rfl | ⟨rfl, rfl⟩
    · exact ⟨['\n'], rfl, .inl rfl⟩
    · exact ⟨[], rfl, .inr ⟨rfl, rfl⟩⟩
  · rintro ⟨tail, rfl, rfl | ⟨rfl, rfl⟩⟩ <;> rfl

theorem closedComment_eq_some_iff
    : closedComment s = some ((), rest)
      ↔ ∃ content g, s = blockComment content ++ (g ++ rest) ∧ EndsNoComment content
        ∧ IsGap g ∧ StopsGap rest := by
  constructor
  · intro read
    obtain ⟨_, inside, opened, read⟩ := Scanner.bind_eq_some_iff.mp read
    obtain ⟨content, behind, closed, read⟩ := Scanner.bind_eq_some_iff.mp read
    obtain ⟨g, rfl, blank, stops⟩ := gap_eq_some_iff.mp read
    refine ⟨content, g, ?_, not_occurs_before (by simp) closed, blank, stops⟩
    rw [Scanner.literal_eq_some_iff.mp opened, eq_append_of_splitAtFirst? closed]
    simp [blockComment]
  · rintro ⟨content, g, rfl, inert, blank, stops⟩
    have opened : blockComment content ++ (g ++ rest)
        = "/*".toList ++ (content ++ '*' :: '/' :: (g ++ rest)) := by
      simp [blockComment]
    exact Scanner.bind_eq_some_iff.mpr ⟨(), _, Scanner.literal_eq_some_iff.mpr opened,
      Scanner.bind_eq_some_iff.mpr ⟨content, _, splitAtFirst?_content inert _,
        gap_eq_some_iff.mpr ⟨g, rfl, blank, stops⟩⟩⟩

-----------------------------------------------------------------------------------------
-- Lines without code
-----------------------------------------------------------------------------------------

/-- A line without code, without its end: blank, a preprocessor line, or nothing but a comment,
which may go over several lines.
-/
inductive Codeless : List Char → Prop
  | blank {g : List Char} (blank : IsGap g) : Codeless g
  | sign {g more : List Char} (blank : IsGap g) (single : '\n' ∉ more)
    : Codeless (g ++ '#' :: more)
  | line {g content : List Char} (blank : IsGap g) (single : '\n' ∉ content)
    : Codeless (g ++ lineComment content)
  | block {g content after : List Char} (blank : IsGap g) (inert : EndsNoComment content)
    (behind : IsGap after)
    : Codeless (g ++ (blockComment content ++ after))

/-- The sign of a preprocessor line, or a comment, or nothing, up to the end of the line. -/
def statement : Scanner Unit :=
  Scanner.possibly ((do Scanner.oneOf ["#", "//"]; lineRest) <|> closedComment)

theorem codelessLine_scan : codelessLine.scan = (do gap; statement; lineEnd) := rfl

/-- What is read as a line without code is one, with its end. -/
theorem codeless_of_scan (scanned : codelessLine.scan s = some ((), rest))
    : ∃ line tail, s = line ++ (tail ++ rest) ∧ Codeless line ∧ IsLineEnd tail rest := by
  rw [codelessLine_scan] at scanned
  obtain ⟨_, middle, gapped, scanned⟩ := Scanner.bind_eq_some_iff.mp scanned
  obtain ⟨_, behind, said, ended⟩ := Scanner.bind_eq_some_iff.mp scanned
  obtain ⟨g, rfl, blank, -⟩ := gap_eq_some_iff.mp gapped
  obtain ⟨tail, rfl, ends⟩ := lineEnd_eq_some_iff.mp ended
  rcases Scanner.possibly_eq_some_iff.mp said with said | ⟨-, rfl⟩
  · rcases Scanner.orElse_eq_some said with signed | closed
    · obtain ⟨_, more, signed, rested⟩ := Scanner.bind_eq_some_iff.mp signed
      obtain ⟨l, rfl, single, -⟩ := lineRest_eq_some_iff.mp rested
      rcases Scanner.orElse_eq_some signed with sign | slashes
      · rw [Scanner.literal_eq_some_iff.mp sign]
        exact ⟨g ++ '#' :: l, tail, by simp, .sign blank single, ends⟩
      · rcases Scanner.orElse_eq_some slashes with slashes | nothing
        · rw [Scanner.literal_eq_some_iff.mp slashes]
          exact ⟨g ++ lineComment l, tail, by simp [lineComment], .line blank single, ends⟩
        · cases nothing
    · obtain ⟨content, after, rfl, inert, blank', -⟩ := closedComment_eq_some_iff.mp closed
      exact ⟨g ++ (blockComment content ++ after), tail, by simp, .block blank inert blank', ends⟩
  · exact ⟨g, tail, rfl, .blank blank, ends⟩

/-- A line without code is read. -/
theorem Codeless.scan (codeless : Codeless line) (ends : IsLineEnd tail rest)
    : codelessLine.scan (line ++ (tail ++ rest)) = some ((), rest) := by
  have read : ∀ {g said : List Char}, IsGap g → StopsGap (said ++ (tail ++ rest))
      → statement (said ++ (tail ++ rest)) = some ((), tail ++ rest)
      → codelessLine.scan (g ++ said ++ (tail ++ rest)) = some ((), rest) := by
    intro g said blank stops read
    rw [List.append_assoc, codelessLine_scan]
    exact Scanner.bind_eq_some_iff.mpr ⟨(), _, gap_eq_some_iff.mpr ⟨g, rfl, blank, stops⟩,
      Scanner.bind_eq_some_iff.mpr ⟨(), _, read, lineEnd_eq_some_iff.mpr ⟨tail, rfl, ends⟩⟩⟩
  have rested : ∀ {l : List Char}, '\n' ∉ l
      → lineRest (l ++ (tail ++ rest)) = some ((), tail ++ rest) :=
    fun single => lineRest_eq_some_iff.mpr ⟨_, rfl, single, ends.head?_eq⟩
  have signed : ∀ (sign : List Char) {l : List Char}, '\n' ∉ l
      → Scanner.oneOf ["#", "//"] (sign ++ (l ++ (tail ++ rest)))
        = some ((), l ++ (tail ++ rest))
      → statement (sign ++ (l ++ (tail ++ rest))) = some ((), tail ++ rest) := by
    intro sign l single read
    refine Scanner.possibly_eq_some_iff.mpr (.inl (Scanner.orElse_eq_some_iff.mpr (.inl ?_)))
    exact Scanner.bind_eq_some_iff.mpr ⟨(), _, read, rested single⟩
  cases codeless with
  | blank blank =>
      have nothing : statement (tail ++ rest) = some ((), tail ++ rest) := by
        rcases ends with rfl | ⟨rfl, rfl⟩ <;> rfl
      simpa using @read line [] blank ends.stopsGap nothing
  | sign blank single =>
      exact read blank (by simp [StopsGap]) (signed ['#'] single rfl)
  | line blank single =>
      exact read blank (by simp [StopsGap, lineComment]) (signed ['/', '/'] single rfl)
  | block blank inert behind =>
      refine read blank (by simp [StopsGap, blockComment]) (Scanner.possibly_eq_some_iff.mpr ?_)
      refine .inl (Scanner.orElse_eq_some_iff.mpr (.inr ⟨rfl, closedComment_eq_some_iff.mpr ?_⟩))
      exact ⟨_, _, List.append_assoc _ _ _, inert, behind, ends.stopsGap⟩

-----------------------------------------------------------------------------------------
-- The run of such lines at the start of a text
-----------------------------------------------------------------------------------------

/-- The lines without code that a text starts with, as many as there are, and the rest of the text.
Only the end of the text may end the last line.
-/
structure LeadingRun (run rest : List Char) : Prop where
  lines : ∃ (lines : List (List Char)) (last : List Char), run = lines.flatMap (· ++ ['\n']) ++ last
    ∧ (∀ l ∈ lines, Codeless l) ∧ Codeless last ∧ (last = [] ∨ rest = [])
  maximal : ∀ line tail after, rest = line ++ (tail ++ after) → Codeless line
    → IsLineEnd tail after → rest = []

theorem LeadingRun.nil (maximal : ∀ line tail after, rest = line ++ (tail ++ after)
      → Codeless line → IsLineEnd tail after → rest = [])
    : LeadingRun [] rest where
  lines := ⟨[], [], rfl, nofun, .blank nofun, .inl rfl⟩
  maximal := maximal

/-- A line without code may be put before a run of them. -/
theorem LeadingRun.cons {run : List Char} (codeless : Codeless line)
    (ends : IsLineEnd tail (run ++ rest)) (later : LeadingRun run rest)
    : LeadingRun (line ++ (tail ++ run)) rest where
  lines := by
    rcases ends with rfl | ⟨rfl, ended⟩
    · obtain ⟨lines, last, rfl, each, last', ended⟩ := later.lines
      refine ⟨line :: lines, last, by simp, ?_, last', ended⟩
      exact List.forall_mem_cons.mpr ⟨codeless, each⟩
    · obtain ⟨rfl, rfl⟩ := List.append_eq_nil_iff.mp ended
      exact ⟨[], line, by simp, nofun, codeless, .inr rfl⟩
  maximal := later.maximal

/-- Where no line without code is read, there is no prologue. -/
theorem prologue_of_code (code : codelessLine.scan s = none) : prologue s = [] := by
  cases s with
  | nil => rfl
  | cons c s =>
      have unread : codelessLine.read? none (c :: s) = none := by simp [Idiom.read?, code]
      simp [prologue, Idiom.pieces, Idiom.piecesFrom, unread, Piece.found?]

/-- Main statement: the prologue of a text is the run of lines without code that it starts with. By
induction on the length of the text.
-/
theorem prologue_leadingRun (s : List Char)
    : ∃ rest, s = prologue s ++ rest ∧ LeadingRun (prologue s) rest := by
  induction size : s.length using Nat.strongRecOn generalizing s with
  | ind size ih =>
      subst size
      cases scanned : codelessLine.scan s with
      | none =>
          rw [prologue_of_code scanned]
          refine ⟨s, rfl, .nil fun line tail after whole codeless ends => ?_⟩
          rw [whole, codeless.scan ends] at scanned
          cases scanned
      | some found =>
          obtain ⟨⟨⟩, rest⟩ := found
          obtain ⟨line, tail, rfl, codeless, ends⟩ := codeless_of_scan scanned
          by_cases filled : line ++ tail = []
          · -- only at the end of the text a line may have no character at all
            have ended : rest = [] := by
              rcases ends with rfl | ⟨-, rfl⟩
              · simp at filled
              · rfl
            rw [← List.append_assoc, filled, ended]
            exact ⟨[], rfl, .nil fun _ _ _ _ _ _ => rfl⟩
          · have shorter : rest.length < (line ++ (tail ++ rest)).length := by
              have positive := List.length_pos_iff.mpr filled
              simp only [List.length_append] at positive ⊢
              omega
            obtain ⟨rest', whole, run⟩ := ih rest.length shorter rest rfl
            rw [← List.append_assoc] at scanned ⊢
            rw [prologue_of_scan filled scanned]
            refine ⟨rest', by rw [List.append_assoc (line ++ tail), ← whole], ?_⟩
            rw [List.append_assoc]
            exact .cons codeless (whole ▸ ends) run

/-- Main statement: a text has one leading run. By induction on its lines. -/
theorem LeadingRun.eq_prologue {run : List Char} (leading : LeadingRun run rest)
    : prologue (run ++ rest) = run := by
  obtain ⟨lines, last, rfl, each, last', ended⟩ := leading.lines
  induction lines with
  | nil =>
      rw [List.flatMap_nil, List.nil_append]
      by_cases filled : last = []
      · rw [filled, List.nil_append]
        cases scanned : codelessLine.scan rest with
        | none => exact prologue_of_code scanned
        | some found =>
            obtain ⟨⟨⟩, after⟩ := found
            obtain ⟨line, tail, whole, codeless, ends⟩ := codeless_of_scan scanned
            rw [leading.maximal line tail after whole codeless ends]
            rfl
      · obtain rfl := ended.resolve_left filled
        have scanned : codelessLine.scan (last ++ ([] ++ [])) = some ((), []) :=
          last'.scan (.inr ⟨rfl, rfl⟩)
        rw [List.nil_append] at scanned
        exact (prologue_of_scan filled scanned).trans (List.append_nil last)
  | cons line lines ih =>
      obtain ⟨first, each⟩ := List.forall_mem_cons.mp each
      have later := ih ⟨⟨lines, last, rfl, each, last', ended⟩, leading.maximal⟩ each
      generalize joined : lines.flatMap (· ++ ['\n']) ++ last = run at later
      have scanned : codelessLine.scan (line ++ (['\n'] ++ (run ++ rest)))
          = some ((), run ++ rest) :=
        first.scan (.inl rfl)
      rw [← List.append_assoc] at scanned
      have longer := prologue_of_scan (by simp) scanned
      rw [later, ← joined] at longer
      simpa using longer

-----------------------------------------------------------------------------------------
-- Directives
-----------------------------------------------------------------------------------------

/-- A line that includes a file or defines a macro, without its end. -/
inductive IsDirective : List Char → Prop
  | mk {g between more : List Char} {word : String} (blank : IsGap g) (inner : IsGap between)
    (named : word ∈ ["include", "define"]) (apart : more.head?.any isWord = false)
    (single : '\n' ∉ more)
    : IsDirective (g ++ '#' :: (between ++ (word.toList ++ more)))

/-- A beginning of a text that ends just after an include or a definition. -/
structure EndsInDirective (start rest : List Char) : Prop where
  line : ∃ before line tail, start = before ++ (line ++ tail)
    ∧ (∀ c ∈ before.getLast?, c = '\n') ∧ IsDirective line ∧ IsLineEnd tail rest

/-- What is read as an include or a definition is one, with the end of its line. -/
theorem directive_of_scan (scanned : directive.scan s = some ((), rest))
    : ∃ line tail, s = line ++ (tail ++ rest) ∧ IsDirective line ∧ IsLineEnd tail rest := by
  obtain ⟨_, _, gapped, scanned⟩ := Scanner.bind_eq_some_iff.mp scanned
  obtain ⟨_, _, signed, scanned⟩ := Scanner.bind_eq_some_iff.mp scanned
  obtain ⟨_, _, gapped', scanned⟩ := Scanner.bind_eq_some_iff.mp scanned
  obtain ⟨_, _, named, scanned⟩ := Scanner.bind_eq_some_iff.mp scanned
  obtain ⟨_, _, worded, scanned⟩ := Scanner.bind_eq_some_iff.mp scanned
  obtain ⟨_, _, rested, ended⟩ := Scanner.bind_eq_some_iff.mp scanned
  obtain ⟨g, rfl, blank, -⟩ := gap_eq_some_iff.mp gapped
  obtain rfl := Scanner.literal_eq_some_iff.mp signed
  obtain ⟨between, rfl, inner, -⟩ := gap_eq_some_iff.mp gapped'
  obtain ⟨rfl, apart⟩ := Scanner.wordEnd_eq_some_iff.mp worded
  obtain ⟨more, rfl, single, -⟩ := lineRest_eq_some_iff.mp rested
  obtain ⟨tail, rfl, ends⟩ := lineEnd_eq_some_iff.mp ended
  have apart' : more.head?.any isWord = false := by
    cases more with
    | nil => rfl
    | cons c more => exact apart
  obtain ⟨word, among, rfl⟩ := Scanner.oneOf_eq_some named
  exact ⟨_, tail, by simp, .mk blank inner among apart' single, ends⟩

/-- An include or a definition is read. -/
theorem IsDirective.scan (directed : IsDirective line) (ends : IsLineEnd tail rest)
    : directive.scan (line ++ (tail ++ rest)) = some ((), rest) := by
  obtain @⟨g, between, more, word, blank, inner, named, apart, single⟩ := directed
  have stops : StopsGap (word.toList ++ (more ++ (tail ++ rest))) := by
    intro c first
    simp only [List.mem_cons, List.not_mem_nil, or_false] at named
    rcases named with rfl | rfl <;> cases first <;> decide
  have worded : Scanner.oneOf ["include", "define"] (word.toList ++ (more ++ (tail ++ rest)))
      = some ((), more ++ (tail ++ rest)) := by
    simp only [List.mem_cons, List.not_mem_nil, or_false] at named
    rcases named with rfl | rfl <;> rfl
  have apart' : (more ++ (tail ++ rest)).head?.any isWord = false := by
    cases more with
    | cons c more => exact apart
    | nil =>
        rw [List.nil_append]
        rcases ends with rfl | ⟨rfl, rfl⟩
        · exact (by decide : isWord '\n' = false)
        · rfl
  have whole : g ++ '#' :: (between ++ (word.toList ++ more)) ++ (tail ++ rest)
      = g ++ ("#".toList ++ (between ++ (word.toList ++ (more ++ (tail ++ rest))))) := by
    simp
  rw [whole]
  refine Scanner.bind_eq_some_iff.mpr ⟨(), _, gap_eq_some_iff.mpr ⟨g, rfl, blank, ?_⟩, ?_⟩
  · simp [StopsGap]
  refine Scanner.bind_eq_some_iff.mpr ⟨(), _, Scanner.literal_eq_some_iff.mpr rfl, ?_⟩
  refine Scanner.bind_eq_some_iff.mpr ⟨(), _, gap_eq_some_iff.mpr ⟨between, rfl, inner, stops⟩, ?_⟩
  refine Scanner.bind_eq_some_iff.mpr ⟨(), _, worded, ?_⟩
  refine Scanner.bind_eq_some_iff.mpr ⟨(), _, Scanner.wordEnd_eq_some_iff.mpr ⟨rfl, apart'⟩, ?_⟩
  exact Scanner.bind_eq_some_iff.mpr ⟨(), _,
    lineRest_eq_some_iff.mpr ⟨more, rfl, single, ends.head?_eq⟩,
    lineEnd_eq_some_iff.mpr ⟨tail, rfl, ends⟩⟩

theorem IsDirective.ne_nil (directed : IsDirective line) : line ≠ [] := by
  cases directed
  simp

theorem IsDirective.single (directed : IsDirective line) : '\n' ∉ line := by
  obtain @⟨g, between, more, word, blank, inner, named, apart, single⟩ := directed
  have gapped : ∀ {g}, IsGap g → '\n' ∉ g := fun blank member => by
    simpa using blank _ member
  have worded : '\n' ∉ word.toList := by
    simp only [List.mem_cons, List.not_mem_nil, or_false] at named
    rcases named with rfl | rfl <;> decide
  simp [gapped blank, gapped inner, worded, single]

-----------------------------------------------------------------------------------------
-- The last directive of the run
-----------------------------------------------------------------------------------------

theorem admits_lineStart_iff {before : Option Char}
    : Opening.lineStart.admits before = true ↔ ∀ c ∈ before, c = '\n' := by
  simp [Opening.admits, Option.all_eq_true]

/-- The constants follow an include or a definition of the prologue, or come first. -/
theorem start_endsInDirective (text : List Char)
    : ∃ rest, text = start text ++ rest ∧ start text <+: prologue text
      ∧ (start text = [] ∨ EndsInDirective (start text) rest) := by
  obtain ⟨code, whole, ended⟩ := prologue_endsLine text
  obtain ⟨first, last, parts, through, -, shape⟩ := throughLast_split directive (prologue text)
  have split := directive.pieces_text (prologue text)
  rw [parts, List.flatMap_append] at split
  have started : start text = first.flatMap Piece.text := through
  rw [started]
  refine ⟨last.flatMap Piece.text ++ code, ?_, ⟨_, split⟩, ?_⟩
  · rw [← List.append_assoc, split]
    exact whole
  · rcases shape with rfl | ⟨before, found, lexeme, rfl⟩
    · exact .inl rfl
    rw [List.append_assoc, List.singleton_append] at parts
    obtain ⟨-, scanned⟩ := Idiom.scan_of_split readsSome_directive parts
    have admitted := Idiom.admits_of_read? (Idiom.read?_of_hit parts)
    obtain ⟨line, tail, same, directed, ends⟩ := directive_of_scan scanned
    rw [← List.append_assoc] at same
    obtain rfl := List.append_cancel_right same
    refine .inr ⟨before.flatMap Piece.text, line, tail, by simp [Piece.text], ?_, directed, ?_⟩
    · simpa using admits_lineStart_iff.mp admitted
    · rcases ends with feed | ⟨rfl, noMore⟩
      · exact .inl feed
      · -- the last line of the prologue has no line feed, so the text ends with it
        refine .inr ⟨rfl, ?_⟩
        have filled := directed.ne_nil
        have prologue_eq : prologue text = before.flatMap Piece.text ++ line := by
          rw [← split, noMore]
          simp [Piece.text]
        rw [prologue_eq] at ended
        rcases ended with rfl | empty | ⟨r, feed⟩
        · rw [noMore]
          rfl
        · exact absurd (List.append_eq_nil_iff.mp empty).2 filled
        · have last := congrArg List.getLast? feed
          rw [List.getLast?_append_of_ne_nil _ filled] at last
          exact absurd (List.mem_of_getLast? (by simpa using last)) directed.single

/-- No include or definition starts behind the last hit. -/
theorem no_directive_behind {first last : List (Piece Unit)} {x : List Char}
    (parts : directive.pieces s = first ++ last) (plain : ∀ piece ∈ last, piece.found? = none)
    (split : last.flatMap Piece.text = x ++ (line ++ (tail ++ rest)))
    (starts : ∀ c ∈ (first.flatMap Piece.text ++ x).getLast?, c = '\n')
    (directed : IsDirective line)
    : ¬ IsLineEnd tail rest := by
  intro ends
  obtain ⟨c, more, filled⟩ := List.exists_cons_of_ne_nil directed.ne_nil
  have characters : last = (last.flatMap Piece.text).map .plain :=
    Idiom.eq_map_plain (List.filterMap_eq_nil_iff.mpr plain)
  rw [split, filled, List.cons_append, List.map_append, List.map_cons] at characters
  rw [characters, ← List.append_assoc] at parts
  have unread := Idiom.read?_of_split parts
  simp only [List.flatMap_append, List.flatMap_map, Piece.text, List.flatMap_singleton',
    List.take_zero, List.nil_append, Option.or_none] at unread
  rw [← List.cons_append, ← filled] at unread
  have shorter : rest.length < (line ++ (tail ++ rest)).length := by
    rw [filled]
    simp
    omega
  have admitted : directive.opening.admits (first.flatMap Piece.text ++ x).getLast? = true :=
    admits_lineStart_iff.mpr starts
  rw [Idiom.read?, if_pos admitted, directed.scan ends] at unread
  simp only [shorter, if_true] at unread
  cases unread

/-- A line with its end goes no further than the next line feed. -/
theorem prefix_of_line {x z : List Char} (single : '\n' ∉ line) (ends : IsLineEnd tail rest)
    (same : line ++ (tail ++ rest) = x ++ '\n' :: z)
    : line ++ tail <+: x ++ ['\n'] := by
  rcases append_cons_eq_append_iff.mp same.symm with ⟨w, within, -⟩ | ⟨w, rfl, behind⟩
  · exact absurd (by simp [within]) single
  · rw [List.append_assoc, List.prefix_append_right_inj]
    rcases ends with rfl | ⟨rfl, -⟩
    · cases w with
      | nil => exact List.prefix_rfl
      | cons c w =>
          obtain rfl := (List.cons.inj behind).1
          exact ⟨w ++ ['\n'], rfl⟩
    · exact List.nil_prefix

/-- A line of a text stands behind the end of another line, or in front of it. -/
theorem behind_or_prefix {start before more z : List Char} (cut : EndsLine start z)
    (single : '\n' ∉ line) (ends : IsLineEnd tail more)
    (both : start ++ z = before ++ (line ++ (tail ++ more)))
    : (∃ x, before = start ++ x ∧ z = x ++ (line ++ (tail ++ more)))
      ∨ before ++ (line ++ tail) <+: start := by
  rcases List.append_eq_append_iff.mp both with ⟨x, same, same'⟩ | ⟨x, rfl, same'⟩
  · exact .inl ⟨x, same, same'⟩
  · rw [List.prefix_append_right_inj]
    rcases cut with rfl | empty | ⟨r, feed⟩
    · exact .inr ⟨more, by simpa using same'⟩
    · obtain ⟨rfl, rfl⟩ := List.append_eq_nil_iff.mp empty
      exact .inl ⟨[], rfl, same'.symm⟩
    · rcases List.eq_nil_or_concat' x with rfl | ⟨x, c, rfl⟩
      · exact .inl ⟨[], by simp, same'.symm⟩
      · have last := congrArg List.getLast? feed
        obtain rfl : c = '\n' := by simpa [← List.append_assoc] using last
        exact .inr (prefix_of_line single ends (by simpa using same'))

/-- Every include and every definition of the prologue stands before the constants. -/
theorem prefix_start {text start' after : List Char} (whole : text = start' ++ after)
    (ends : EndsInDirective start' after) (within : start' <+: prologue text)
    : start' <+: start text := by
  obtain ⟨first, last, parts, through, plain, -⟩ := throughLast_split directive (prologue text)
  have started : start text = first.flatMap Piece.text := through
  have split := directive.pieces_text (prologue text)
  rw [parts, List.flatMap_append, ← started] at split
  obtain ⟨before, line, tail, rfl, starts, directed, ends⟩ := ends.line
  obtain ⟨more, within⟩ := within
  obtain ⟨code, whole', -⟩ := prologue_leadingRun text
  obtain ⟨behind, whole'', cut⟩ := start_endsLine text
  -- both lines end in the prologue as they end in the text
  have after_eq : after = more ++ code := by
    refine List.append_cancel_left (whole.symm.trans (whole'.trans ?_))
    rw [← within, List.append_assoc]
  have behind_eq : behind = last.flatMap Piece.text ++ code := by
    refine List.append_cancel_left (whole''.symm.trans (whole'.trans ?_))
    rw [← split, List.append_assoc]
  have ends' : IsLineEnd tail more :=
    ends.imp_right fun ⟨empty, noMore⟩ =>
      ⟨empty, (List.append_eq_nil_iff.mp (after_eq.symm.trans noMore)).1⟩
  have cut' : EndsLine (start text) (last.flatMap Piece.text) :=
    cut.imp_left fun noMore => (List.append_eq_nil_iff.mp (behind_eq.symm.trans noMore)).1
  have both : start text ++ last.flatMap Piece.text = before ++ (line ++ (tail ++ more)) := by
    rw [split, ← within]
    simp
  rcases behind_or_prefix cut' directed.single ends' both with ⟨x, rfl, same⟩ | inside
  · rw [started] at starts
    exact absurd ends' (no_directive_behind parts plain same starts directed)
  · exact inside

end RangeTuner.Rewrite.ZoneConstants
