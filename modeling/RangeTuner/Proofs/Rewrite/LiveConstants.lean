import RangeTuner.Proofs.Rewrite.ConstantsText
import RangeTuner.Proofs.Rewrite.InsertedConstants
import RangeTuner.Proofs.Rewrite.KeptBodies
import RangeTuner.Proofs.Text.OpenComments

/-! Whether zone constants are live. The last directive before any code may be a line of a block
comment, or go on on the next line, and the constants are put in behind it all the same. Main
statement: in a comment they are dead, whatever they say, and elsewhere their definitions are
lines of the cleaned text.
-/

namespace RangeTuner.Rewrite.ZoneConstants

open RangeTuner.Decimal RangeTuner.Spec RangeTuner.Text

variable {line : List Char}

-----------------------------------------------------------------------------------------
-- The lines of the constants
-----------------------------------------------------------------------------------------

/-- A line of the constants. It is cleaned by itself, and a directive is kept. -/
structure ConstantLine (line : List Char) : Prop where
  cleans : CleansTo line (clean line)
  starless : '*' ∉ line
  single : '\n' ∉ line ∧ '\n' ∉ clean line
  directive : line.head? = some '#' → clean line = line

theorem ConstantLine.of_plain (plain : line.all isPlain = true) (starless : '*' ∉ line)
    (single : '\n' ∉ line)
    : ConstantLine line := by
  have cleans := CleansTo.of_plain plain
  have same := cleans.cleaned
  exact ⟨same.symm ▸ cleans, starless, ⟨single, same.symm ▸ single⟩, fun _ => same⟩

theorem ConstantLine.of_comment {content : List Char} (starless : '*' ∉ content)
    (single : '\n' ∉ content) (unescaped : content.getLast? ≠ some '\\')
    : ConstantLine (lineComment content) := by
  have cleans := CleansTo.of_lineComment single unescaped
  have nothing := cleans.cleaned
  refine ⟨nothing.symm ▸ cleans, ?_, ⟨?_, nothing.symm ▸ List.not_mem_nil⟩, nofun⟩
  · simpa [lineComment] using starless
  · simpa [lineComment] using single

/-- A definition with a number. -/
theorem ConstantLine.of_definition {name : String} (plain : name.toList.all isPlain = true)
    (starless : '*' ∉ name.toList) (single : '\n' ∉ name.toList) (places : Nat) (x : Float)
    : ConstantLine (name ++ fixed places x).toList := by
  rw [String.toList_append]
  refine .of_plain ?_ (List.not_mem_append starless ?_) (List.not_mem_append single ?_)
  · rw [List.all_append, plain, PlanarDistance.plain_fixed]
    rfl
  · exact not_mem_fixed (by simp [IsFigure]) (by decide) places x
  · exact PlanarDistance.no_feed_fixed places x

variable (settings : Settings) (center : Float × Float) (area : Float)

/-- The constants are lines that are cleaned one by one. -/
theorem constants_lines
    : ∃ lines : List (List Char), constants settings center area = lines.flatMap (· ++ ['\n'])
      ∧ ∀ line ∈ lines, ConstantLine line := by
  obtain ⟨latitude, longitude⟩ := center
  have listed : ∀ lines : List String, lines.flatMap (fun line => line.toList ++ ['\n'])
      = (lines.map String.toList).flatMap (· ++ ['\n']) := by
    intro lines
    rw [List.flatMap_map]
  refine ⟨_, listed _, ?_⟩
  have title : ("// " ++ tag ++ " precomputed zone constants").toList
      = lineComment " rangeopt: precomputed zone constants".toList := by
    decide +kernel
  have place : ("// zone center (" ++ fixed 6 latitude ++ ", " ++ fixed 6 longitude ++ "), area "
        ++ fixed 1 area ++ " km²").toList
      = lineComment ((" zone center (" ++ fixed 6 latitude ++ ", " ++ fixed 6 longitude
          ++ "), area " ++ fixed 1 area).toList ++ " km²".toList) := by
    have opens : "// zone center (".toList = '/' :: '/' :: " zone center (".toList := by decide
    simp only [String.toList_append, opens, lineComment, List.cons_append, List.append_assoc]
  have numbers : ∀ places x, '*' ∉ (fixed places x).toList ∧ '\n' ∉ (fixed places x).toList :=
    fun places x => ⟨not_mem_fixed (by simp [IsFigure]) (by decide) places x,
      PlanarDistance.no_feed_fixed places x⟩
  simp only [List.map_cons, List.map_nil, List.forall_mem_cons, title, place]
  refine ⟨.of_plain rfl List.not_mem_nil List.not_mem_nil,
    .of_comment (by decide) (by decide) (by decide), .of_comment ?_ ?_ ?_,
    .of_definition (by decide +kernel) (by decide +kernel) (by decide +kernel) 6 _,
    .of_definition (by decide) (by decide) (by decide) 6 _,
    .of_definition (by decide) (by decide) (by decide) 6 _,
    .of_definition (by decide) (by decide) (by decide) 6 _,
    .of_definition (by decide) (by decide) (by decide) 1 _,
    .of_definition (by decide) (by decide) (by decide) 1 _,
    .of_plain rfl List.not_mem_nil List.not_mem_nil, List.forall_mem_nil _⟩
  · simp [numbers]
  · simp [numbers]
  · rw [List.getLast?_append]
    exact (by decide : some '²' ≠ some '\\')

/-- The constants are cleaned line by line. -/
theorem clean_constantLines
    : ∃ lines : List (List Char), constants settings center area = lines.flatMap (· ++ ['\n'])
      ∧ (∀ line ∈ lines, ConstantLine line)
      ∧ ∀ t, clean (constants settings center area ++ t)
        = (lines.map clean).flatMap (· ++ ['\n']) ++ clean t := by
  obtain ⟨lines, same, each⟩ := constants_lines settings center area
  refine ⟨lines, same, each, fun t => ?_⟩
  rw [same, clean_lines]
  rw [List.forall₂_map_right_iff, List.forall₂_same]
  exact fun line member => (each line member).cleans

/-- The constants are cleaned on their own. -/
theorem clean_constants_append (t : List Char)
    : clean (constants settings center area ++ t)
      = clean (constants settings center area) ++ clean t := by
  obtain ⟨lines, -, -, cleans⟩ := clean_constantLines settings center area
  have alone := cleans []
  rw [List.append_nil, clean_nil, List.append_nil] at alone
  rw [cleans t, alone]

/-- Cleaning keeps every directive of the constants. -/
theorem directive_kept (among : HasLine line (constants settings center area))
    (sign : line.head? = some '#')
    : HasLine line (clean (constants settings center area)) := by
  obtain ⟨lines, same, each, cleans⟩ := clean_constantLines settings center area
  have split := splitOn_lines_append (fun line member => (each line member).single.1) []
  have split' := splitOn_lines_append (List.forall_mem_map.mpr fun line member =>
    (each line member).single.2) []
  have alone := cleans []
  rw [List.append_nil] at split alone
  have member : line ∈ lines := by
    rw [HasLine, same, split, List.mem_append] at among
    refine among.resolve_right fun blank => ?_
    obtain rfl := List.mem_singleton.mp blank
    cases sign
  rw [HasLine, alone, clean_nil, split']
  exact List.mem_append_left _ (List.mem_map.mpr ⟨line, member, (each line member).directive sign⟩)

/-- No comment ends in the constants. -/
theorem endsNoComment_constants_append {t : List Char} (inert : EndsNoComment t)
    : EndsNoComment (constants settings center area ++ t) := by
  obtain ⟨lines, same, each⟩ := constants_lines settings center area
  rw [same]
  exact .lines_append (fun line member =>
    .of_absent (each line member).starless List.mem_cons_self) inert

-----------------------------------------------------------------------------------------
-- Live and dead constants
-----------------------------------------------------------------------------------------

variable {settings center area} {before after : List Char}

/-- Where no comment is open, or none ends, the constants are cleaned apart from the text. -/
theorem clean_insert_of_apart (whole : before.getLast? ≠ some '\\')
    (closed : EndsNoComment after ∨ occurs ['/', '*'] (clean before) = false)
    : clean (before ++ (constants settings center area ++ after))
      = clean before ++ (clean (constants settings center area) ++ clean after) := by
  rw [← clean_constants_append]
  have closed' := closed.imp_left (endsNoComment_constants_append settings center area)
  obtain ⟨more, begins⟩ := constants_begin settings center area
  rw [begins, List.cons_append] at closed' ⊢
  have cut := clean_append_of_line (t := '/' :: '/' :: more ++ after) whole
    (closed'.imp_left fun inert => inert.of_append_right (s := ['\n']))
  rw [cut, clean_cons rfl]

/-- Line feeds go as far before the end of a comment as they do without it. -/
theorem dropFeeds_append_comment (inner rest : List Char)
    : (inner ++ '*' :: '/' :: rest).dropWhile (· == '\n')
      = inner.dropWhile (· == '\n') ++ '*' :: '/' :: rest := by
  rw [List.dropWhile_append]
  split
  · next empty =>
      rw [List.isEmpty_iff.mp empty]
      rfl
  · rfl

/-- In a comment the constants are cleaned away with it, and nothing else changes. -/
theorem clean_insert_of_inBlockComment (ends : EndsLine before after)
    (whole : ¬ EndsContinued before) (inside : InBlockComment before after)
    : clean (before ++ (constants settings center area ++ after.dropWhile (· == '\n')))
      = clean (before ++ after) := by
  obtain ⟨leaves, closes⟩ := (inBlockComment_iff ends whole).mp inside
  rcases ends with rfl | rfl | ⟨r, rfl⟩
  · cases closes
  · cases leaves
  · rw [endsContinued_line_iff] at whole
    obtain ⟨⟨inner, rest⟩, split⟩ := Option.isSome_iff_exists.mp closes
    obtain ⟨live, same⟩ := clean_of_open whole ((occurs_clean_line_iff whole).mp leaves)
    have inert : EndsNoComment inner := not_occurs_before (by simp) split
    have behind : after = inner ++ '*' :: '/' :: rest := eq_append_of_splitAtFirst? split
    have new := same _ rest
      (endsNoComment_constants_append settings center area (inert.dropWhile (· == '\n')))
    have old := same inner rest inert
    rw [behind, dropFeeds_append_comment]
    simp only [List.append_assoc, List.singleton_append] at new ⊢
    rw [new, old]

/-- Main statement: the constants are live where they stand in no comment, and dead in one. They are
put behind the last directive before any code; where its line is not continued, they stand in a
comment exactly if the cleaned text up to it leaves one open and the rest closes it.
-/
theorem constants_live (settings : Settings) (facts : Facts) (text : List Char)
    (absent : occurs centerName.toList text = false) (small : authorizes settings facts = true)
    : ∃ center area rest, facts.center? = some center ∧ facts.area? = some area
      ∧ text = start text ++ rest
      ∧ rewrite settings facts text
        = start text ++ (constants settings center area ++ rest.dropWhile (· == '\n'))
      ∧ (¬ EndsContinued (start text)
        → (InBlockComment (start text) rest
            ↔ occurs ['/', '*'] (clean (start text)) = true ∧ occurs ['*', '/'] rest = true)
          ∧ (InBlockComment (start text) rest
            → clean (rewrite settings facts text) = clean text)
          ∧ (¬ InBlockComment (start text) rest
            → clean (rewrite settings facts text)
                = clean (start text)
                  ++ (clean (constants settings center area)
                    ++ clean (rest.dropWhile (· == '\n')))
              ∧ ∀ line, HasLine line (constants settings center area) → line.head? = some '#'
                → HasLine line (clean (constants settings center area)))) := by
  obtain ⟨center, area, located, known⟩ := exists_of_authorizes small
  obtain ⟨rest, whole, ends⟩ := start_endsLine text
  have rewritten : rewrite settings facts text
      = start text ++ (constants settings center area ++ rest.dropWhile (· == '\n')) :=
    rewrite_of_absent absent located known whole
  refine ⟨center, area, rest, located, known, whole, rewritten, fun apart => ?_⟩
  have open_iff := inBlockComment_iff ends apart
  refine ⟨open_iff, fun inside => ?_, fun outside => ⟨?_, fun line => directive_kept _ _ _⟩⟩
  · rw [rewritten, clean_insert_of_inBlockComment ends apart inside, ← whole]
  · rw [rewritten]
    refine clean_insert_of_apart (fun last => apart (.inl ?_)) ?_
    · exact List.singleton_suffix_iff_getLast?_eq_some.mpr last
    · rw [open_iff, not_and_or, Bool.not_eq_true, Bool.not_eq_true] at outside
      exact outside.symm.imp_left fun unended => EndsNoComment.dropWhile unended (· == '\n')

/-- A text whose only definition before its code stands in a comment, in two parts. -/
def commentedDefinition : List Char × List Char :=
  ("/*\n#define OLD 1\n".toList, "*/\nint x;\n".toList)

/-- A text whose definition goes over two lines. -/
def continuedDefinition : List Char :=
  "#define LIMIT \\\n  1\nint x;\n".toList

theorem start_commentedDefinition
    : start (commentedDefinition.1 ++ commentedDefinition.2) = commentedDefinition.1 := by
  decide +kernel

/-- The constants may come into a comment, and between the lines of a definition. -/
theorem constants_misplaced
    : (¬ ∀ settings facts text rest, occurs centerName.toList text = false
        → authorizes settings facts = true → text = start text ++ rest
        → ¬ InBlockComment (start text) rest)
      ∧ ¬ ∀ settings facts text rest, occurs centerName.toList text = false
        → authorizes settings facts = true → text = start text ++ rest
        → ¬ EndsContinued (start text) := by
  have small : authorizes .standard zone = true := by decide +kernel
  refine ⟨fun outside => ?_, fun apart => ?_⟩
  · refine outside .standard zone (commentedDefinition.1 ++ commentedDefinition.2)
      commentedDefinition.2 (by decide +kernel) small ?_ ?_
    · rw [start_commentedDefinition]
    · rw [start_commentedDefinition]
      exact (inBlockComment_iff (.inr (.inr ⟨"/*\n#define OLD 1".toList, rfl⟩)) (by decide)).mpr
        ⟨by decide +kernel, by decide⟩
  · exact apart .standard zone continuedDefinition "  1\nint x;\n".toList (by decide +kernel) small
      (by decide +kernel) (by decide +kernel)

/-- The constants are dead in the comment of a text. -/
theorem constants_dead_of_commentedDefinition
    : occurs centerName.toList (commentedDefinition.1 ++ commentedDefinition.2) = false
      ∧ authorizes .standard zone = true
      ∧ clean (rewrite .standard zone (commentedDefinition.1 ++ commentedDefinition.2))
        = clean (commentedDefinition.1 ++ commentedDefinition.2) := by
  have absent : occurs centerName.toList (commentedDefinition.1 ++ commentedDefinition.2) = false :=
    by decide +kernel
  have small : authorizes .standard zone = true := by decide +kernel
  obtain ⟨_, _, rest, -, -, whole, -, standing⟩ :=
    constants_live .standard zone (commentedDefinition.1 ++ commentedDefinition.2) absent small
  rw [start_commentedDefinition] at whole standing
  obtain rfl : commentedDefinition.2 = rest := List.append_cancel_left whole
  obtain ⟨inside, dead, -⟩ := standing (by decide)
  exact ⟨absent, small, dead (inside.mpr ⟨by decide +kernel, by decide⟩)⟩

end RangeTuner.Rewrite.ZoneConstants
