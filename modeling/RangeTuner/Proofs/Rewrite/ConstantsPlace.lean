import Mathlib.Data.List.TakeWhile
import RangeTuner.Proofs.Rewrite.TitleLines

/-! Where zone constants are put. They follow the last directive before any code, which ends its
line, so they break no line and bring no title in. Behind a comment that holds no directive they
are put where they would be put without it, except that they come before the comment if there is
no directive at all.
-/

namespace RangeTuner.Text

variable {α β : Type}

/-- What the scanner reads goes to the end of a line or of the text. -/
def Scanner.EndsLine (scan : Scanner α) : Prop :=
  ∀ s found rest, scan s = some (found, rest) → rest = [] ∨ ∃ r, s = r ++ '\n' :: rest

/-- The last of two scanners decides where they end. -/
theorem Scanner.EndsLine.bind {scan : Scanner α} {next : α → Scanner β}
    (first : scan.ReadsOnly fun _ => True) (second : ∀ found, (next found).EndsLine)
    : (scan >>= next).EndsLine := by
  intro s found rest h
  obtain ⟨between, middle, began, ended⟩ := bind_eq_some_iff.mp h
  obtain ⟨start, rfl, -⟩ := first _ _ _ began
  refine (second between _ _ _ ended).imp_right fun ⟨r, same⟩ => ⟨start ++ r, ?_⟩
  rw [same, List.append_assoc]

/-- A beginning of a text that goes to the end of a line, or is empty, or is the whole text. -/
def EndsLine (start rest : List Char) : Prop :=
  rest = [] ∨ start = [] ∨ ∃ r, start = r ++ ['\n']

/-- The pieces up to a hit of an idiom that ends lines end a line. -/
theorem endsLine_of_split {idiom : Idiom α} (reads : idiom.scan.ReadsOnly fun _ => True)
    (ends : idiom.scan.EndsLine) {s lexeme : List Char} {found : α}
    {first last : List (Piece α)}
    (split : idiom.pieces s = first ++ .hit found lexeme :: last)
    : EndsLine (first.flatMap Piece.text ++ lexeme) (last.flatMap Piece.text) := by
  obtain ⟨filled, scanned⟩ := Idiom.scan_of_split reads split
  refine (ends _ _ _ scanned).imp_right fun ⟨r, same⟩ => .inr ?_
  refine ⟨first.flatMap Piece.text ++ r, ?_⟩
  have lexeme_eq : lexeme = r ++ ['\n'] := List.append_cancel_right (by simpa using same)
  rw [lexeme_eq, List.append_assoc]

end RangeTuner.Text

namespace RangeTuner.Rewrite.ZoneConstants

open RangeTuner.Text

-----------------------------------------------------------------------------------------
-- Lines that are read
-----------------------------------------------------------------------------------------

/-- Whatever is read. -/
abbrev ReadsSome {α : Type} (scan : Scanner α) : Prop :=
  scan.ReadsOnly fun _ => True

theorem readsSome_literal (text : String) : ReadsSome (Scanner.literal text) :=
  .literal (by simp)

theorem readsSome_oneOf (texts : List String) : ReadsSome (Scanner.oneOf texts) := by
  induction texts with
  | nil => exact Scanner.Reads.failure
  | cons text texts ih => exact Scanner.Reads.orElse (readsSome_literal text) ih

theorem readsSome_gap : ReadsSome gap :=
  (Scanner.ReadsOnly.run (by simp)).bind fun _ => .pure _

theorem readsSome_lineRest : ReadsSome lineRest :=
  (Scanner.ReadsOnly.run (by simp)).bind fun _ => .pure _

/-- Where no word goes on, nothing is read. -/
theorem readsSome_wordEnd : ReadsSome Scanner.wordEnd := by
  intro s found rest h
  obtain ⟨rfl, -⟩ := Scanner.wordEnd_eq_some_iff.mp h
  exact ⟨[], rfl, by simp⟩

theorem readsSome_closedComment : ReadsSome closedComment := by
  have inside : ReadsSome fun s => splitAtFirst? ['*', '/'] s := by
    intro s before rest h
    exact ⟨before ++ ['*', '/'], by simpa using eq_append_of_splitAtFirst? h, by simp⟩
  exact (readsSome_literal "/*").bind fun _ => inside.bind fun _ => readsSome_gap

/-- The end of a line is a line feed or the end of the text. -/
theorem lineEnd_eq_some {s rest : List Char} (h : lineEnd s = some ((), rest))
    : s = '\n' :: rest ∨ s = [] ∧ rest = [] := by
  rcases Scanner.orElse_eq_some h with feed | ended
  · exact .inl (Scanner.literal_eq_some_iff.mp feed)
  · simp only [Scanner.textEnd] at ended
    split at ended
    next empty =>
      cases ended
      exact .inr ⟨by simpa using empty, rfl⟩
    next => cases ended

theorem readsSome_lineEnd : ReadsSome lineEnd := by
  intro s found rest h
  rcases lineEnd_eq_some h with rfl | ⟨rfl, rfl⟩
  · exact ⟨['\n'], rfl, by simp⟩
  · exact ⟨[], rfl, by simp⟩

theorem lineEnd_endsLine : lineEnd.EndsLine := by
  intro s found rest h
  rcases lineEnd_eq_some h with rfl | ⟨rfl, rfl⟩
  · exact .inr ⟨[], rfl⟩
  · exact .inl rfl

theorem readsSome_codeless
    : ReadsSome (Scanner.possibly
        ((do Scanner.oneOf ["#", "//"]; lineRest) <|> closedComment)) :=
  .possibly (Scanner.Reads.orElse ((readsSome_oneOf _).bind fun _ => readsSome_lineRest)
    readsSome_closedComment)

theorem readsSome_codelessLine : ReadsSome codelessLine.scan :=
  readsSome_gap.bind fun _ => readsSome_codeless.bind fun _ => readsSome_lineEnd

theorem codelessLine_endsLine : codelessLine.scan.EndsLine :=
  .bind readsSome_gap fun _ => .bind readsSome_codeless fun _ => lineEnd_endsLine

theorem readsSome_directive : ReadsSome directive.scan :=
  readsSome_gap.bind fun _ => (readsSome_literal "#").bind fun _ => readsSome_gap.bind fun _ =>
    (readsSome_oneOf _).bind fun _ => readsSome_wordEnd.bind fun _ =>
      readsSome_lineRest.bind fun _ => readsSome_lineEnd

theorem directive_endsLine : directive.scan.EndsLine :=
  .bind readsSome_gap fun _ => .bind (readsSome_literal "#") fun _ => .bind readsSome_gap fun _ =>
    .bind (readsSome_oneOf _) fun _ => .bind readsSome_wordEnd fun _ =>
      .bind readsSome_lineRest fun _ => lineEnd_endsLine

-----------------------------------------------------------------------------------------
-- The beginning that the constants follow
-----------------------------------------------------------------------------------------

/-- The lines without code at the start of a text end a line. -/
theorem prologue_endsLine (text : List Char)
    : ∃ rest, text = prologue text ++ rest ∧ EndsLine (prologue text) rest := by
  generalize taken : ((codelessLine.pieces text).takeWhile fun piece => piece.found?.isSome) = hits
  generalize left : ((codelessLine.pieces text).dropWhile fun piece => piece.found?.isSome) = last
  have parts : codelessLine.pieces text = hits ++ last := by
    rw [← taken, ← left, List.takeWhile_append_dropWhile]
  refine ⟨last.flatMap Piece.text, ?_, ?_⟩
  · rw [prologue, taken, ← List.flatMap_append, ← parts, Idiom.pieces_text]
  · rw [prologue, taken]
    rcases List.eq_nil_or_concat' hits with no_hits | ⟨first, piece, some_hits⟩
    · exact .inr (.inl (by rw [no_hits]; rfl))
    · have allHits : hits.all (fun piece => piece.found?.isSome) = true :=
        taken ▸ List.all_takeWhile
      have isHit : piece.found?.isSome = true :=
        List.all_eq_true.mp allHits piece (by rw [some_hits]; simp)
      cases piece with
      | plain c => cases isHit
      | hit found lexeme =>
          rw [some_hits, List.append_assoc] at parts
          have ends := endsLine_of_split readsSome_codelessLine codelessLine_endsLine parts
          rw [some_hits, List.flatMap_append]
          simpa [Piece.text] using ends

/-- A text through the last hit of an idiom is the text of the pieces up to it. -/
theorem throughLast_split {α : Type} (idiom : Idiom α) (s : List Char)
    : ∃ first last, idiom.pieces s = first ++ last
      ∧ throughLast idiom s = first.flatMap Piece.text ∧ (∀ piece ∈ last, piece.found? = none)
      ∧ (first = [] ∨ ∃ before found lexeme, first = before ++ [.hit found lexeme]) := by
  -- the last hit is the first one of the reversed pieces
  generalize taken : ((idiom.pieces s).reverse.takeWhile fun piece => piece.found?.isNone) = after
  generalize left : ((idiom.pieces s).reverse.dropWhile fun piece => piece.found?.isNone) = hits
  have parts : (idiom.pieces s).reverse = after ++ hits := by
    rw [← taken, ← left, List.takeWhile_append_dropWhile]
  refine ⟨hits.reverse, after.reverse, ?_, by rw [throughLast, left], fun piece member => ?_, ?_⟩
  · rw [← List.reverse_append, ← parts, List.reverse_reverse]
  · have allPlain : after.all (fun piece => piece.found?.isNone) = true :=
      taken ▸ List.all_takeWhile
    simpa using List.all_eq_true.mp allPlain piece (List.mem_reverse.mp member)
  · cases hits with
    | nil => exact .inl rfl
    | cons piece before =>
        have isHit := List.head?_dropWhile_not (fun piece : Piece α => piece.found?.isNone)
          (idiom.pieces s).reverse
        rw [left] at isHit
        cases piece with
        | plain c => simp [Piece.found?] at isHit
        | hit found lexeme => exact .inr ⟨before.reverse, found, lexeme, List.reverse_cons⟩

/-- A text through the last hit of an idiom: nothing if there is none, or all pieces up to it. -/
theorem throughLast_cases {α : Type} (idiom : Idiom α) (s : List Char)
    : (throughLast idiom s = [] ∧ ∀ piece ∈ idiom.pieces s, piece.found? = none)
      ∨ ∃ first found lexeme last, idiom.pieces s = first ++ .hit found lexeme :: last
        ∧ throughLast idiom s = first.flatMap Piece.text ++ lexeme := by
  obtain ⟨first, last, parts, through, plain, rfl | ⟨before, found, lexeme, rfl⟩⟩ :=
    throughLast_split idiom s
  · exact .inl ⟨through, parts ▸ plain⟩
  · refine .inr ⟨before, found, lexeme, last, by simp [parts], ?_⟩
    simp [through, Piece.text]

/-- The beginning that the constants follow ends a line. -/
theorem start_endsLine (text : List Char)
    : ∃ rest, text = start text ++ rest ∧ EndsLine (start text) rest := by
  obtain ⟨code, whole, ended⟩ := prologue_endsLine text
  rcases throughLast_cases directive (prologue text) with
    ⟨empty, -⟩ | ⟨first, found, lexeme, last, parts, through⟩
  · exact ⟨text, by rw [start, empty]; rfl, .inr (.inl empty)⟩
  · have ends := endsLine_of_split readsSome_directive directive_endsLine parts
    have split := directive.pieces_text (prologue text)
    rw [parts, List.flatMap_append, List.flatMap_cons, ← List.append_assoc] at split
    rw [start, through]
    refine ⟨last.flatMap Piece.text ++ code, ?_, ?_⟩
    · rw [← List.append_assoc]
      exact whole.trans (congrArg (· ++ code) split.symm)
    · rcases ends with noMore | inside
      · rw [noMore, List.append_nil] at split
        rw [noMore, show first.flatMap Piece.text ++ lexeme = prologue text from split]
        exact ended
      · exact .inr inside

-----------------------------------------------------------------------------------------
-- Behind a comment
-----------------------------------------------------------------------------------------

/-- A comment with its line end and a blank line, without a directive and without constants. -/
structure Banner (h : List Char) : Prop where
  comment : ∃ inner, h = '/' :: '*' :: (inner ++ ['*', '/', '\n', '\n']) ∧ '/' ∉ inner
  no_directive : '#' ∉ h
  no_constants : 'G' ∉ h

variable {h : List Char}

/-- No gap starts where neither a blank nor a tabulator stands. -/
theorem gap_of_cons {c : Char} (other : (c == ' ' || c == '\t') = false) (s : List Char)
    : gap (c :: s) = some ((), c :: s) := by
  simp [gap, Scanner.run, bind, StateT.bind, pure, StateT.pure, other]

/-- The comment of a banner is read as lines without code. -/
theorem scan_comment {inner : List Char} (unclosed : '/' ∉ inner) (t : List Char)
    : codelessLine.scan ('/' :: '*' :: (inner ++ '*' :: '/' :: '\n' :: t)) = some ((), t) := by
  have found : splitAtFirst? ['*', '/'] (inner ++ '*' :: '/' :: '\n' :: t)
      = some (inner, '\n' :: t) :=
    splitAtFirst?_of_absent (by decide : '/' ∉ ['*']) unclosed ('\n' :: t)
  have comment : closedComment ('/' :: '*' :: (inner ++ '*' :: '/' :: '\n' :: t))
      = some ((), '\n' :: t) := by
    refine Scanner.bind_eq_some_iff.mpr ⟨(), inner ++ '*' :: '/' :: '\n' :: t, rfl, ?_⟩
    exact Scanner.bind_eq_some_iff.mpr ⟨inner, '\n' :: t, found, gap_of_cons rfl t⟩
  refine Scanner.bind_eq_some_iff.mpr ⟨(), _, gap_of_cons rfl _, ?_⟩
  refine Scanner.bind_eq_some_iff.mpr ⟨(), '\n' :: t, ?_, rfl⟩
  -- a line comment or a directive would be tried first
  have noLine : (do Scanner.oneOf ["#", "//"]; lineRest : Scanner Unit)
      ('/' :: '*' :: (inner ++ '*' :: '/' :: '\n' :: t)) = none := rfl
  simp [Scanner.possibly, HOrElse.hOrElse, OrElse.orElse, Alternative.orElse, StateT.orElse,
    noLine, comment]

/-- A line that is read first comes first in the prologue. -/
theorem prologue_of_scan {first rest : List Char} (filled : first ≠ [])
    (scanned : codelessLine.scan (first ++ rest) = some ((), rest))
    : prologue (first ++ rest) = first ++ prologue rest := by
  have anywhere : codelessLine.piecesFrom 0 (first.getLast?.or none) rest
      = codelessLine.pieces rest :=
    @Idiom.piecesFrom_congr _ codelessLine (first.getLast?.or none) none rfl 0 rest
  rw [prologue, Idiom.pieces, Idiom.piecesFrom_of_scan rfl filled scanned, anywhere]
  rfl

/-- The lines of a banner come first among the lines without code. -/
theorem prologue_append (banner : Banner h) (t : List Char)
    : prologue (h ++ t) = h ++ prologue t := by
  obtain ⟨inner, rfl, unclosed⟩ := banner.comment
  have blank : codelessLine.scan (['\n'] ++ t) = some ((), t) := by
    refine Scanner.bind_eq_some_iff.mpr ⟨(), _, gap_of_cons rfl _, ?_⟩
    exact Scanner.bind_eq_some_iff.mpr ⟨(), _, rfl, rfl⟩
  have comment : codelessLine.scan
      (('/' :: '*' :: (inner ++ ['*', '/', '\n'])) ++ (['\n'] ++ t))
      = some ((), ['\n'] ++ t) := by
    simpa using scan_comment unclosed ('\n' :: t)
  have split : ('/' :: '*' :: (inner ++ ['*', '/', '\n', '\n'])) ++ t
      = ('/' :: '*' :: (inner ++ ['*', '/', '\n'])) ++ (['\n'] ++ t) := by
    simp
  rw [split, prologue_of_scan (by simp) comment, prologue_of_scan (by simp) blank]
  simp

/-- No directive starts in lines that have no directive sign. -/
theorem scan_directive_append {s : List Char} (sign : '#' ∉ s) (feed : '\n' ∈ s)
    (t : List Char)
    : directive.scan (s ++ t) = none := by
  -- the gap ends within the lines, at the latest before their line feed
  have stops : s.dropWhile (fun c => c == ' ' || c == '\t') ≠ [] := fun blank => by
    simpa using List.dropWhile_eq_nil_iff.mp blank '\n' feed
  obtain ⟨c, rest, left⟩ := List.exists_cons_of_ne_nil stops
  have other : c ≠ '#' := by
    rintro rfl
    exact sign (List.dropWhile_subset _ (left ▸ List.mem_cons_self))
  have gapped : gap (s ++ t) = some ((), c :: (rest ++ t)) := by
    simp [gap, Scanner.run, bind, StateT.bind, pure, StateT.pure, List.dropWhile_append, left]
  refine Option.eq_none_iff_forall_ne_some.mpr ?_
  rintro ⟨found, tail⟩ scanned
  obtain ⟨_, middle, blank, scanned⟩ := Scanner.bind_eq_some_iff.mp scanned
  rw [gapped] at blank
  cases blank
  obtain ⟨_, _, signed, -⟩ := Scanner.bind_eq_some_iff.mp scanned
  exact other (List.cons.inj (Scanner.literal_eq_some_iff.mp signed)).1

/-- Lines without a directive sign are cut into their characters, by induction on them. -/
theorem directive_piecesFrom_append {s : List Char} (sign : '#' ∉ s) (before : Option Char)
    (t : List Char)
    : directive.piecesFrom 0 before (s ++ '\n' :: t)
      = (s ++ ['\n']).map .plain ++ directive.pieces t := by
  have unread : ∀ before {s : List Char}, '#' ∉ s → '\n' ∈ s
      → directive.read? before (s ++ t) = none := by
    intro before s sign feed
    simp [Idiom.read?, scan_directive_append sign feed]
  induction s generalizing before with
  | nil =>
      have here := unread before (s := ['\n']) (by decide) (by decide)
      have same : directive.piecesFrom 0 (some '\n') t = directive.pieces t :=
        @Idiom.piecesFrom_congr _ directive (some '\n') none rfl 0 t
      rw [List.singleton_append] at here
      simp [Idiom.piecesFrom, here, same]
  | cons c s ih =>
      have here := unread before (s := c :: s ++ ['\n']) (by simpa using sign) (by simp)
      rw [List.append_assoc, List.singleton_append, List.cons_append] at here
      rw [List.mem_cons, not_or] at sign
      simp [Idiom.piecesFrom, here, ih sign.2]

/-- No directive starts in a banner. -/
theorem directive_pieces_append (banner : Banner h) (t : List Char)
    : directive.pieces (h ++ t) = h.map .plain ++ directive.pieces t := by
  obtain ⟨inner, same, -⟩ := banner.comment
  have last : h = '/' :: '*' :: (inner ++ ['*', '/', '\n']) ++ ['\n'] := by simp [same]
  have sign := banner.no_directive
  rw [last, List.mem_append, not_or] at sign
  rw [last, List.append_assoc, List.singleton_append]
  exact directive_piecesFrom_append sign.1 none t

/-- Where there is no directive, there is no beginning that the constants follow. -/
theorem throughLast_eq_nil {s : List Char} (empty : throughLast directive s = [])
    : (directive.pieces s).reverse.dropWhile (fun piece => piece.found?.isNone) = [] := by
  rcases throughLast_cases directive s with
    ⟨-, plain⟩ | ⟨first, found, lexeme, last, parts, through⟩
  · refine List.dropWhile_eq_nil_iff.mpr fun piece member => ?_
    rw [plain piece (List.mem_reverse.mp member)]
    rfl
  · obtain ⟨filled, -⟩ := Idiom.scan_of_split readsSome_directive parts
    exact absurd (List.append_eq_nil_iff.mp (through.symm.trans empty)).2 filled

/-- The constants go where they would go without the banner, or else before it. -/
theorem start_append (banner : Banner h) (t : List Char)
    : start (h ++ t) = if start t = [] then [] else h ++ start t := by
  have plain : (h.map Piece.plain).reverse.dropWhile
      (fun piece : Piece Unit => piece.found?.isNone) = [] := by
    simp [List.dropWhile_eq_nil_iff, Piece.found?]
  have text : (h.map (Piece.plain (α := Unit))).flatMap Piece.text = h := by
    simp [List.flatMap_map, Piece.text]
  unfold start
  rw [prologue_append banner, throughLast, directive_pieces_append banner, List.reverse_append,
    List.dropWhile_append]
  split
  next noHit =>
    have empty : throughLast directive (prologue t) = [] := by
      rw [throughLast, List.isEmpty_iff.mp noHit]
      rfl
    rw [plain, if_pos empty]
    rfl
  next hit =>
    rw [if_neg fun empty => hit (by rw [throughLast_eq_nil empty]; rfl), List.reverse_append,
      List.reverse_reverse, List.flatMap_append, text]
    rfl

end RangeTuner.Rewrite.ZoneConstants
