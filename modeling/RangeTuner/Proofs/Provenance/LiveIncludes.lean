import RangeTuner.Proofs.Provenance.CommentHeader
import RangeTuner.Proofs.Provenance.Includes
import RangeTuner.Proofs.Text.CleanedLines

/-! Live includes. Includes are looked for in a text as it is, so one that stands in a comment, and
one that is no include at all, is found like a live one, and its header is not put in. Main
statement: what is put in, which headers an annotated text includes outside its comments, and
that these are all that are required exactly when each one that is found is live.
-/

namespace RangeTuner.Text

variable {s t : List Char}

-----------------------------------------------------------------------------------------
-- Characters of comments
-----------------------------------------------------------------------------------------

/-- The characters of a piece, marked where they belong to a comment. -/
def Piece.marked : Piece Lexeme → List (Char × Bool)
  | .plain c => [(c, false)]
  | .hit kind lexeme => lexeme.map fun c => (c, decide (kind = .comment))

/-- The characters of a text, marked where they belong to a comment. -/
def marked (s : List Char) : List (Char × Bool) :=
  (Lexeme.idiom.pieces s).flatMap Piece.marked

/-- Characters outside comments. -/
def live (s : List Char) : List (Char × Bool) :=
  s.map fun c => (c, false)

/-- Behind a line that is cleaned by itself, a text is marked as it is on its own. -/
theorem marked_append_line {code : List Char} (cleans : CleansTo s code) (t : List Char)
    : marked (s ++ '\n' :: t) = marked s ++ ('\n', false) :: marked t := by
  rw [marked, Lexeme.pieces_append_line cleans.unescaped (.inr cleans.uncommented),
    List.flatMap_append, List.flatMap_cons]
  rfl

/-- Plain characters are outside comments, by induction on them. -/
theorem marked_of_plain (plain : s.all isPlain = true) : marked s = live s := by
  induction s with
  | nil => rfl
  | cons c s ih =>
      rw [List.all_cons, Bool.and_eq_true] at plain
      rw [marked, Lexeme.pieces_cons (Lexeme.scan_of_isPlain plain.1 s), List.flatMap_cons]
      exact congrArg ((c, false) :: ·) (ih plain.2)

/-- All characters of a block comment belong to it. -/
theorem marked_blockComment {content : List Char} (inert : EndsNoComment content)
    : marked (blockComment content) = (blockComment content).map fun c => (c, true) := by
  have formed : Lexeme.Formed .comment (blockComment content) [] := .block inert
  have cut := Lexeme.pieces_append formed
  rw [List.append_nil] at cut
  rw [marked, cut]
  exact List.append_nil _

end RangeTuner.Text

namespace RangeTuner.Provenance

open RangeTuner.Text

variable {name : List Char} {s t : List Char}

-----------------------------------------------------------------------------------------
-- Including a header
-----------------------------------------------------------------------------------------

/-- A line starts behind these characters. -/
def StartsLine (before : List (Char × Bool)) : Prop :=
  ∀ c ∈ before.getLast?, c.1 = '\n'

/-- The text includes a header on one of its lines, outside every comment. -/
def Includes (name text : List Char) : Prop :=
  ∃ before directive after, marked text = before ++ (live directive ++ after)
    ∧ StartsLine before ∧ IsInclude name directive

theorem startsLine_append_feed {line before : List (Char × Bool)}
    : StartsLine (line ++ ('\n', false) :: before) ↔ StartsLine before := by
  unfold StartsLine
  rw [List.getLast?_append_cons, List.getLast?_cons]
  cases before.getLast? <;> simp

/-- A text includes nothing without the sign of a directive in it, outside every comment. -/
theorem hash_mem_of_includes (includes : Includes name s) : ('#', false) ∈ marked s := by
  obtain ⟨before, directive, after, split, -, written⟩ := includes
  rw [split]
  exact List.mem_append_right _ <| List.mem_append_left _ <|
    List.mem_map_of_mem (f := fun c => (c, false)) written.hash_mem

theorem not_includes_of_plain (plain : s.all isPlain = true) (absent : '#' ∉ s)
    : ¬ Includes name s := by
  intro includes
  have member := hash_mem_of_includes includes
  rw [marked_of_plain plain] at member
  exact absent (by simpa [live] using member)

/-- Nothing is included in a comment. -/
theorem not_includes_blockComment {content : List Char} (inert : EndsNoComment content)
    : ¬ Includes name (blockComment content) := by
  intro includes
  have member := hash_mem_of_includes includes
  rw [marked_blockComment inert] at member
  simp at member

/-- A text includes what a line of it that is cleaned by itself includes, and what the text behind
it includes: no include goes over the line feed.
-/
theorem includes_append_line (includable : Includable name) {code : List Char}
    (cleans : CleansTo s code) (t : List Char)
    : Includes name (s ++ '\n' :: t) ↔ Includes name s ∨ Includes name t := by
  unfold Includes
  rw [marked_append_line cleans]
  constructor
  · rintro ⟨before, directive, after, split, starts, written⟩
    have apart : ('\n', false) ∉ live directive := by
      simpa [live] using written.single includable
    rcases append_cons_eq_append_iff.mp split with ⟨x, rfl, same⟩ | ⟨x, within, behind⟩
    · exact .inr ⟨x, directive, after, same, startsLine_append_feed.mp starts, written⟩
    · rcases append_cons_eq_append_iff.mp behind.symm with ⟨y, same, -⟩ | ⟨y, rfl, -⟩
      · exact absurd (same ▸ by simp) apart
      · exact .inl ⟨before, directive, y, within, starts, written⟩
  · rintro (⟨before, directive, after, split, starts, written⟩
      | ⟨before, directive, after, split, starts, written⟩)
    · exact ⟨before, directive, after ++ ('\n', false) :: marked t, by simp [split], starts,
        written⟩
    · exact ⟨marked s ++ ('\n', false) :: before, directive, after, by simp [split],
        startsLine_append_feed.mpr starts, written⟩

/-- A line feed in front of a text includes nothing more. -/
theorem includes_feed (includable : Includable name) (t : List Char)
    : Includes name ('\n' :: t) ↔ Includes name t :=
  (includes_append_line includable (.of_plain rfl : CleansTo [] []) t).trans
    (or_iff_right (not_includes_of_plain rfl List.not_mem_nil))

-----------------------------------------------------------------------------------------
-- The parts of an annotated text
-----------------------------------------------------------------------------------------

/-- The name of a header that cleaning leaves in its include. -/
structure Insertable (header : List Char) : Prop extends Includable header where
  plain : header.all isPlain = true

theorem insertable_of_required {name : String} (required : name ∈ requiredHeaders)
    : Insertable name.toList := by
  have each : ∀ name ∈ requiredHeaders, name.toList.all isPlain = true := by decide +kernel
  exact ⟨includable_of_required required, each name required⟩

theorem plain_includeOf {header : List Char} (insertable : Insertable header)
    : (includeOf header).all isPlain = true := by
  rw [includeOf_eq, List.all_append, List.all_append, insertable.plain]
  decide

/-- The line of an include includes its header and no other: nothing stands before its directive,
and a scan finds one name.
-/
theorem includes_includeOf {header : List Char} (includable : Includable name)
    (insertable : Insertable header)
    : Includes name (includeOf header) ↔ name = header := by
  unfold Includes
  rw [marked_of_plain (plain_includeOf insertable)]
  constructor
  · rintro ⟨before, directive, after, split, starts, written⟩
    have text := congrArg (List.map Prod.fst) split
    simp only [live, List.map_append, List.map_map, Function.comp_def, List.map_id'] at text
    have single := (isInclude_includeOf header).single insertable.toIncludable
    have first : before = [] := by
      refine List.getLast?_eq_none_iff.mp (Option.eq_none_iff_forall_ne_some.mpr fun c last => ?_)
      have within : c.1 ∈ before.map Prod.fst := List.mem_map_of_mem (List.mem_of_getLast? last)
      rw [starts c last] at within
      exact single (text ▸ List.mem_append_left _ within)
    subst first
    have found := written.scan includable (after.map Prod.fst)
    have found' := (isInclude_includeOf header).scan insertable.toIncludable []
    rw [List.append_nil, text, List.map_nil, List.nil_append, found] at found'
    exact (Prod.mk.inj (Option.some.inj found')).1
  · rintro rfl
    exact ⟨[], includeOf name, [], by simp, nofun, isInclude_includeOf name⟩

/-- Includes that are put in front of a text include their headers there, by induction on them. -/
theorem includes_includeBlock_append (includable : Includable name) {headers : List String}
    (each : ∀ header ∈ headers, Insertable header.toList) (t : List Char)
    : Includes name (includeBlock headers ++ t)
      ↔ name ∈ headers.map String.toList ∨ Includes name t := by
  have lines : ∀ u, Includes name
      ((headers.flatMap fun header => ("#include <" ++ header ++ ">\n").toList) ++ u)
      ↔ name ∈ headers.map String.toList ∨ Includes name u := by
    intro u
    induction headers with
    | nil => simp
    | cons header headers ih =>
        obtain ⟨first, others⟩ := List.forall_mem_cons.mp each
        have cleans := CleansTo.of_plain (plain_includeOf first)
        rw [List.flatMap_cons, toList_include, List.append_assoc, List.append_assoc,
          List.singleton_append, includes_append_line includable cleans,
          includes_includeOf includable first, ih others]
        simp [or_assoc]
  unfold includeBlock
  split
  next none => simp [List.isEmpty_iff.mp none]
  next => rw [List.append_assoc, lines, List.singleton_append, includes_feed includable]

/-- An annotated text includes what is put in and what the text below its header includes. -/
theorem includes_annotate_iff {header : String} (required : header ∈ requiredHeaders)
    (entries : List ProvenanceEntry) (text : List Char)
    : Includes header.toList (annotate requiredHeaders entries text)
      ↔ header ∈ missing requiredHeaders (strip text) ∨ Includes header.toList (strip text) := by
  obtain ⟨content, inert, same⟩ := header_eq_blockComment entries
  have includable := includable_of_required required
  have each : ∀ header ∈ missing requiredHeaders (strip text), Insertable header.toList :=
    fun header member => insertable_of_required (List.mem_filter.mp member).1
  have cleans : CleansTo (blockComment content) [] := .of_blockComment inert
  have fed : ['\n', '\n'] ++ below requiredHeaders text
      = '\n' :: ('\n' :: below requiredHeaders text) := rfl
  rw [annotate_eq, same, List.append_assoc, fed, includes_append_line includable cleans,
    or_iff_right (not_includes_blockComment inert), includes_feed includable, below,
    includes_includeBlock_append includable each]
  simp [String.toList_inj]

/-- Main statement: below its new header, an annotated text has the required headers that are not
found in it, each once and in their order, and then the old text. It includes what is put in and
what it included before; every required header is included, and every one that was not is put in,
exactly when each required header that is found was included outside comments.
-/
theorem annotated_includes (entries : List ProvenanceEntry) (text : List Char)
    : annotate requiredHeaders entries text
        = header entries ++ (includeBlock (missing requiredHeaders (strip text)) ++ strip text)
      ∧ (missing requiredHeaders (strip text)).Sublist requiredHeaders
      ∧ (missing requiredHeaders (strip text)).Nodup
      ∧ (∀ name ∈ requiredHeaders, Includes name.toList (annotate requiredHeaders entries text)
          ↔ name ∈ missing requiredHeaders (strip text) ∨ Includes name.toList (strip text))
      ∧ ((∀ name ∈ requiredHeaders, Includes name.toList (annotate requiredHeaders entries text))
          ∧ (∀ name ∈ requiredHeaders, ¬ Includes name.toList (strip text)
              → name ∈ missing requiredHeaders (strip text))
          ↔ ∀ name ∈ requiredHeaders, name.toList ∈ includeLine.findAll (strip text)
              → Includes name.toList (strip text)) := by
  have part : (missing requiredHeaders (strip text)).Sublist requiredHeaders :=
    List.filter_sublist
  have distinct : requiredHeaders.Nodup := by decide
  have exact_on : ∀ name ∈ requiredHeaders,
      Includes name.toList (annotate requiredHeaders entries text)
        ↔ name ∈ missing requiredHeaders (strip text) ∨ Includes name.toList (strip text) :=
    fun name required => includes_annotate_iff required entries text
  have missing_iff : ∀ name ∈ requiredHeaders, name ∈ missing requiredHeaders (strip text)
      ↔ name.toList ∉ includeLine.findAll (strip text) := by
    intro name required
    simp [missing, required]
  refine ⟨annotate_eq .., part, distinct.sublist part, exact_on, ?_, ?_⟩
  · rintro ⟨-, inserted⟩ name required found
    by_contra dead
    exact (missing_iff name required).mp (inserted name required dead) found
  · intro alive
    have inserted : ∀ name ∈ requiredHeaders, ¬ Includes name.toList (strip text)
        → name ∈ missing requiredHeaders (strip text) :=
      fun name required dead => (missing_iff name required).mpr fun found =>
        dead (alive name required found)
    refine ⟨fun name required => (exact_on name required).mpr ?_, inserted⟩
    exact or_iff_not_imp_right.mpr (inserted name required)

/-- A text without includes is given all of them. -/
theorem annotated_includes_of_declaration
    : ∀ name ∈ requiredHeaders,
        Includes name.toList (annotate requiredHeaders [] "int x;\n".toList) := by
  have nothing : includeLine.findAll (strip "int x;\n".toList) = [] := by decide +kernel
  obtain ⟨-, -, -, -, complete⟩ := annotated_includes [] "int x;\n".toList
  refine (complete.mpr fun name _ found => ?_).1
  rw [nothing] at found
  cases found

/-- A text whose only include stands in a comment. -/
def sheltered : List Char :=
  "/*\n#include <stdio.h>\n*/\nint x;\n".toList

theorem not_includes_sheltered : ¬ Includes "stdio.h".toList (strip sheltered) := by
  have same : strip sheltered = blockComment "\n#include <stdio.h>\n".toList
      ++ '\n' :: ("int x;".toList ++ '\n' :: []) := by decide +kernel
  have inert : EndsNoComment "\n#include <stdio.h>\n".toList := by decide
  have cleans : CleansTo (blockComment "\n#include <stdio.h>\n".toList) [] :=
    .of_blockComment inert
  have cleans' : CleansTo "int x;".toList "int x;".toList := .of_plain (by decide)
  have includable : Includable "stdio.h".toList := includable_of_required (by decide)
  rw [same, includes_append_line includable cleans,
    includes_append_line includable cleans']
  rintro (within | within | within)
  · exact not_includes_blockComment inert within
  · exact not_includes_of_plain (by decide) (by decide) within
  · exact not_includes_of_plain rfl List.not_mem_nil within

/-- An include in a comment is taken for a live one, so its header is not put in. -/
theorem stdio_missing_behind_comment
    : ¬ ∀ (entries : List ProvenanceEntry) (text : List Char), ∀ name ∈ requiredHeaders,
        Includes name.toList (annotate requiredHeaders entries text) := by
  intro complete
  have required : "stdio.h" ∈ requiredHeaders := by decide
  have found : "stdio.h" ∉ missing requiredHeaders (strip sheltered) := by decide +kernel
  rcases (includes_annotate_iff required [] sheltered).mp (complete [] sheltered _ required)
    with inserted | included
  · exact found inserted
  · exact not_includes_sheltered included

end RangeTuner.Provenance
