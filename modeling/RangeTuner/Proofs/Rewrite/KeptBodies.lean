import RangeTuner.Proofs.Rewrite.RepeatedPlanar
import RangeTuner.Proofs.Rewrite.TitleLines
import RangeTuner.Proofs.Text.BlockBraces
import RangeTuner.Proofs.Text.CleanedLines
import RangeTuner.Proofs.Text.Trimming

/-! What is left of an approximated body. The lines of the old body stand in comments, each in one
of its own, and cleaning takes their content, so that the number of the lines is all that the
code shows of them. Main statement: approximating distances replaces balanced bodies and nothing
else, and every new body keeps the old one readable and dead.
-/

namespace RangeTuner.Rewrite.PlanarDistance

open RangeTuner.Decimal RangeTuner.Spec RangeTuner.Text

variable {settings : Settings} {facts : Facts}

-----------------------------------------------------------------------------------------
-- The code of an approximated body
-----------------------------------------------------------------------------------------

/-- What the code of an approximated body says about its function: the type that it returns, and the
names of its parameters.
-/
structure Signature where
  type : String
  latitude₁ : List Char
  longitude₁ : List Char
  latitude₂ : List Char
  longitude₂ : List Char
deriving DecidableEq

def Function.signature (f : Function) : Signature :=
  ⟨f.type, f.latitude₁, f.longitude₁, f.latitude₂, f.longitude₂⟩

/-- The lines of an approximated body before the comments with the old one, cleaned. -/
def liveLines (settings : Settings) (facts : Facts) (s : Signature) : List String :=
  let latitude := (facts.bounds? Axis.latitude.name).map Facts.middle |>.getD 0.0
  let scale := settings.metersPerDegree * (radians latitude).cos
  let difference (a b : List Char) : String :=
    "(" ++ .ofList a ++ " - " ++ .ofList b ++ ")"
  [
    "",
    "const " ++ s.type ++ " LAT_TO_METERS = " ++ fixed 1 settings.metersPerDegree ++ ";",
    "const " ++ s.type ++ " LON_TO_METERS = " ++ fixed 1 scale ++ "; ",
    s.type ++ " dlat_m = " ++ difference s.latitude₂ s.latitude₁ ++ " * LAT_TO_METERS;",
    s.type ++ " dlon_m = " ++ difference s.longitude₂ s.longitude₁ ++ " * LON_TO_METERS;",
    "return sqrt(dlat_m * dlat_m + dlon_m * dlon_m);",
    ""]

/-- An approximated body in its braces, cleaned, where some lines of the old one are kept: they
leave their indentation.
-/
def liveBlock (settings : Settings) (facts : Facts) (s : Signature) (indent : List Char)
    (kept : Nat) : List Char :=
  let lines := (liveLines settings facts s).map (fun line => indent ++ line.toList)
    ++ List.replicate kept indent
  '{' :: '\n' :: (lines.flatMap (· ++ ['\n']) ++ ['}'])

theorem plain_fixed (places : Nat) (x : Float) : (fixed places x).toList.all isPlain = true := by
  refine plain_of_class ?_ ?_ ?_ ?_ fun _ => id
  all_goals exact not_mem_fixed (by simp [IsFigure]) (by decide) places x

/-- The first line of an approximated body is a comment. -/
theorem cleansTo_banner (area : Float)
    : CleansTo ("// " ++ tag ++ " " ++ note ++ " (zone area " ++ fixed 1 area ++ " km²)").toList
        "".toList := by
  have opens : ("// " ++ tag ++ " " ++ note ++ " (zone area ").toList
      = '/' :: '/' :: " rangeopt: planar distance approximation (zone area ".toList := by
    decide +kernel
  rw [String.toList_append, String.toList_append, opens]
  refine .of_lineComment (List.not_mem_append (List.not_mem_append ?_ ?_) ?_) ?_
  · decide +kernel
  · exact no_feed_fixed 1 area
  · decide
  · show (_ ++ " km²)".toList).getLast? ≠ some '\\'
    rw [List.getLast?_append]
    exact (by decide : some ')' ≠ some '\\')

/-- The line with the scale is cleaned of the comment at its end. -/
theorem cleansTo_scale {type : String} (plain : type.toList.all isPlain = true)
    (scale latitude : Float)
    : CleansTo ("const " ++ type ++ " LON_TO_METERS = " ++ fixed 1 scale ++ "; /* at latitude "
          ++ fixed 6 latitude ++ " */").toList
        ("const " ++ type ++ " LON_TO_METERS = " ++ fixed 1 scale ++ "; ").toList := by
  have opens : "; /* at latitude ".toList
      = "; ".toList ++ '/' :: '*' :: " at latitude ".toList := by
    decide
  have closes : " */".toList = ' ' :: ['*', '/'] := by decide
  have whole : ("const " ++ type ++ " LON_TO_METERS = " ++ fixed 1 scale ++ "; /* at latitude "
        ++ fixed 6 latitude ++ " */").toList
      = ("const " ++ type ++ " LON_TO_METERS = " ++ fixed 1 scale ++ "; ").toList
        ++ blockComment (" at latitude ".toList ++ ((fixed 6 latitude).toList ++ [' '])) := by
    simp only [String.toList_append, opens, closes, blockComment, List.append_assoc,
      List.cons_append, List.nil_append]
  rw [whole]
  refine .append_blockComment ?_ (.of_absent (c := '*')
    (List.not_mem_append ?_ (List.not_mem_append ?_ ?_)) List.mem_cons_self)
  · simp only [String.toList_append, List.all_append, plain, plain_fixed, Bool.and_true]
    decide
  · decide
  · exact not_mem_fixed (by simp [IsFigure]) (by decide) 6 latitude
  · decide

/-- The new lines of a function are cleaned to those of its signature. -/
theorem cleansTo_planarLines {f : Function} {read : List Char} (shape : Approximable f read)
    : List.Forall₂ (fun line live : String => CleansTo line.toList live.toList)
        (planarLines settings facts f) (liveLines settings facts f.signature) := by
  have type : f.type.toList.all isPlain = true :=
    (by decide : ∀ type ∈ ["double", "float"], type.toList.all isPlain = true) f.type shape.type
  have names : ∀ name ∈ [f.latitude₁, f.longitude₁, f.latitude₂, f.longitude₂],
      name.all isPlain = true :=
    fun name among => plain_of_class (by decide) (by decide) (by decide) (by decide)
      (shape.names name among)
  simp only [List.forall_mem_cons] at names
  obtain ⟨latitude₁, longitude₁, latitude₂, longitude₂, -⟩ := names
  have original : CleansTo (lineComment " great-circle original:".toList) "".toList :=
    .of_lineComment (by decide) (by decide)
  unfold planarLines liveLines
  simp only [Function.signature]
  refine .cons (cleansTo_banner _) (.cons (.of_plain ?_) (.cons (cleansTo_scale type _ _)
    (.cons (.of_plain ?_) (.cons (.of_plain ?_) (.cons (.of_plain (by decide))
      (.cons original .nil))))))
  all_goals
    simp only [String.toList_append, String.toList_ofList, List.all_append, plain_fixed, type,
      latitude₁, longitude₁, latitude₂, longitude₂, Bool.and_true, Bool.true_and]
    decide

-----------------------------------------------------------------------------------------
-- The comments with the old body
-----------------------------------------------------------------------------------------

/-- A line in a comment of its own under an indentation: all of it but backslashes and blanks at its
end, where the comment does not go on.
-/
structure CommentOf (indent line comment : List Char) : Prop where
  said : ∃ said backslashes blanks, comment = indent ++ '/' :: '/' :: said
    ∧ line = said ++ (backslashes ++ blanks) ∧ (∀ c ∈ backslashes, c = '\\')
    ∧ ∀ c ∈ blanks, isBlank c = true
  single : '\n' ∉ comment
  unescaped : comment.getLast? ≠ some '\\'

/-- The comment with a line of an old body. -/
def comment (body line : List Char) : List Char :=
  indentation body ++ '/' :: '/' :: commentText line

/-- The text of a comment ends in no backslash. -/
theorem getLast?_commentText (line : List Char) : (commentText line).getLast? ≠ some '\\' := by
  intro last
  have first := List.head?_dropWhile_not (· == '\\') (trimEnd line).reverse
  rw [commentText, dropEndWhile, List.getLast?_reverse] at last
  simp [last] at first

theorem no_feed_commentText {body line : List Char} (member : line ∈ filledLines body)
    : '\n' ∉ commentText line := by
  intro feed
  exact no_feed_of_mem_lines (List.mem_filter.mp member).1
    (dropEndWhile_subset _ _ (dropEndWhile_subset _ _ feed))

theorem keptLines_eq (f : Function)
    : keptLines f = ((filledLines f.body).map (comment f.body)).flatMap (· ++ ['\n']) := by
  simp [keptLines, comment, List.flatMap_map]

/-- A line in a comment is cleaned away, and leaves its indentation. -/
theorem cleansTo_comment {body line : List Char} (member : line ∈ filledLines body)
    : CleansTo (comment body line) (indentation body) := by
  have alone := CleansTo.of_lineComment (no_feed_commentText member) (getLast?_commentText line)
  have blank : ∀ c ∈ indentation body, isBlank c = true := fun _ => isBlank_of_mem_indentation
  have indented := alone.indented blank
  rwa [List.append_nil] at indented

theorem commentOf_comment {body line : List Char} (member : line ∈ filledLines body)
    : CommentOf (indentation body) line (comment body line) where
  said := by
    obtain ⟨blanks, trimmed, blank⟩ := exists_append_dropEndWhile isBlank line
    obtain ⟨backslashes, cut, backslash⟩ := exists_append_dropEndWhile (· == '\\') (trimEnd line)
    refine ⟨commentText line, backslashes, blanks, rfl, ?_, fun c among => ?_, blank⟩
    · rw [← List.append_assoc]
      exact trimmed.trans (congrArg (· ++ blanks) cut)
    · exact beq_iff_eq.mp (backslash c among)
  single := by
    refine List.not_mem_append (no_feed_indentation body) ?_
    simpa using no_feed_commentText member
  unescaped := (cleansTo_comment member).unescaped

/-- Cleaning an approximated body leaves the code of its signature, and the indentation of each line
of the old body.
-/
theorem clean_planarBlock {f : Function} {read : List Char} (shape : Approximable f read)
    : clean (planarBlock settings facts f)
      = liveBlock settings facts f.signature (indentation f.body) (filledLines f.body).length := by
  have blank : ∀ c ∈ indentation f.body, isBlank c = true :=
    fun _ => isBlank_of_mem_indentation
  have new : List.Forall₂ CleansTo
      ((planarLines settings facts f).map fun line => indentation f.body ++ line.toList)
      ((liveLines settings facts f.signature).map fun line =>
        indentation f.body ++ line.toList) := by
    rw [List.forall₂_map_left_iff, List.forall₂_map_right_iff]
    exact (cleansTo_planarLines shape).imp fun _ _ cleans => cleans.indented blank
  have old : List.Forall₂ CleansTo ((filledLines f.body).map (comment f.body))
      (List.replicate (filledLines f.body).length (indentation f.body)) := by
    rw [← List.map_const', List.forall₂_map_left_iff, List.forall₂_map_right_iff,
      List.forall₂_same]
    exact fun line member => cleansTo_comment member
  have parts : planarBlock settings facts f
      = ['{', '\n'] ++ (((planarLines settings facts f).map fun line =>
          indentation f.body ++ line.toList).flatMap (· ++ ['\n'])
        ++ (((filledLines f.body).map (comment f.body)).flatMap (· ++ ['\n']) ++ ['}'])) := by
    simp [planarBlock, newLines, keptLines_eq, List.flatMap_map]
  rw [parts, clean_plain_append (by decide), clean_lines new, clean_lines old,
    show clean ['}'] = ['}'] from rfl]
  simp [liveBlock]

-----------------------------------------------------------------------------------------
-- Approximated texts
-----------------------------------------------------------------------------------------

theorem finds_balanced : idiom.scan.Finds fun f => Balanced f.body := by
  have block : Scanner.Finds Balanced fun s => block? s := fun _ _ _ => balanced_of_block?
  refine .after fun ⟨⟨type, parameters⟩, head⟩ => .after fun _ => block.bind fun body balanced => ?_
  refine .after fun _ => ?_
  split
  · exact .pure balanced
  · exact fun _ _ _ failed => nomatch failed

theorem indentation_ne_nil (body : List Char) : indentation body ≠ [] := by
  simp only [indentation]
  split
  · simp
  · next filled => simpa using filled

/-- What is kept of a function that is approximated, and what of the new body is code: the old body
is balanced, each of its filled lines stands in a comment, and cleaning leaves nothing of a line
but that it is there.
-/
structure Auditable (settings : Settings) (facts : Facts) (f : Function) : Prop where
  balanced : Balanced f.body
  indented : indentation f.body ≠ [] ∧ ∀ c ∈ indentation f.body, isBlank c = true
  comments : ∃ comments, List.Forall₂ (CommentOf (indentation f.body)) (filledLines f.body) comments
    ∧ planarBlock settings facts f
      = '{' :: '\n' :: (newLines settings facts f ++ (comments.flatMap (· ++ ['\n']) ++ ['}']))
  live : clean (planarBlock settings facts f)
    = liveBlock settings facts f.signature (indentation f.body) (filledLines f.body).length

theorem auditable_of_findAll {text : List Char} {f : Function}
    (member : f ∈ idiom.findAll text)
    : Auditable settings facts f := by
  obtain ⟨piece, within, same⟩ := List.mem_filterMap.mp member
  cases piece with
  | plain c => cases same
  | hit g lexeme =>
      obtain rfl : g = f := Option.some.inj same
      exact {
        balanced := Idiom.forall_found finds_balanced within
        indented := ⟨indentation_ne_nil g.body, fun _ => isBlank_of_mem_indentation⟩
        comments := by
          refine ⟨(filledLines g.body).map (comment g.body), ?_, by rw [planarBlock, keptLines_eq]⟩
          rw [List.forall₂_map_right_iff, List.forall₂_same]
          exact fun line filled => commentOf_comment filled
        live := clean_planarBlock (Idiom.forall_hits reads_idiom within)
      }

/-- A text put together from functions, each with what is kept before its body, and a rest. -/
def assembled (block : Function → List Char) (parts : List (List Char × Function))
    (last : List Char) : List Char :=
  (parts.flatMap fun (kept, f) => kept ++ block f) ++ last

/-- A body in its braces. -/
def Function.block (f : Function) : List Char :=
  '{' :: (f.body ++ ['}'])

/-- Pieces are put together from their functions, by induction on them: a character goes before the
next body, or into the rest.
-/
theorem exists_parts {pieces : List (Piece Function)}
    (shapes : ∀ f lexeme, .hit f lexeme ∈ pieces → Approximable f lexeme)
    : ∃ parts last, parts.map Prod.snd = pieces.filterMap Piece.found?
      ∧ (∀ part ∈ parts, part.2.head <:+ part.1)
      ∧ pieces.flatMap Piece.text = assembled Function.block parts last
      ∧ ∀ settings facts, pieces.flatMap (Piece.replaced (planar settings facts))
        = assembled (planarBlock settings facts) parts last := by
  induction pieces with
  | nil => exact ⟨[], [], rfl, nofun, rfl, fun _ _ => rfl⟩
  | cons piece pieces ih =>
      obtain ⟨parts, last, found, heads, old, new⟩ :=
        ih fun f lexeme member => shapes f lexeme (List.mem_cons_of_mem _ member)
      cases piece with
      | plain c =>
          cases parts with
          | nil =>
              refine ⟨[], c :: last, found, nofun, ?_, fun settings facts => ?_⟩
              · simp [old, Piece.text, assembled]
              · simp [new, Piece.replaced, assembled]
          | cons part parts =>
              rw [List.forall_mem_cons] at heads
              refine ⟨(c :: part.1, part.2) :: parts, last, found,
                List.forall_mem_cons.mpr ⟨heads.1.trans (List.suffix_cons _ _), heads.2⟩, ?_,
                fun settings facts => ?_⟩
              · simp [old, Piece.text, assembled]
              · simp [new, Piece.replaced, assembled]
      | hit f lexeme =>
          have shape := shapes f lexeme List.mem_cons_self
          refine ⟨(f.head, f) :: parts, last, ?_,
            List.forall_mem_cons.mpr ⟨List.suffix_rfl, heads⟩, ?_, fun settings facts => ?_⟩
          · simp [found, Piece.found?]
          · simp [old, Piece.text, assembled, shape.whole, Function.block]
          · simp [new, Piece.replaced, assembled, planar_eq]

/-- Main statement: approximating distances replaces the bodies of the functions that are found, and
nothing else, their heads included. Each of these bodies is balanced, its filled lines stand in
comments in their order, none of which goes on on the next line, and the code of the new body
says nothing about the old one but its indentation and how many filled lines it has.
-/
theorem rewrite_keeps_bodies (settings : Settings) (facts : Facts) (text : List Char)
    : ∃ parts last, parts.map Prod.snd = idiom.findAll text
      ∧ text = assembled Function.block parts last
      ∧ rewrite settings facts text = assembled (planarBlock settings facts) parts last
      ∧ ∀ part ∈ parts, part.2.head <:+ part.1 ∧ Auditable settings facts part.2 := by
  have shapes : ∀ f lexeme, .hit f lexeme ∈ idiom.pieces text → Approximable f lexeme :=
    fun _ _ => Idiom.forall_hits reads_idiom
  obtain ⟨parts, last, found, heads, old, new⟩ := exists_parts shapes
  refine ⟨parts, last, found, ?_, ?_, fun part member => ⟨heads part member, ?_⟩⟩
  · rw [← old, Idiom.pieces_text]
  · rw [rewrite, Idiom.replace_eq_replaced, new]
  · have among : part.2 ∈ idiom.findAll text := by
      rw [Idiom.findAll, ← found]
      exact List.mem_map_of_mem member
    exact auditable_of_findAll among

theorem length_liveBlock (s : Signature) (indent : List Char) (kept : Nat)
    : (liveBlock settings facts s indent kept).length
      = (liveBlock settings facts s indent 0).length + kept * (indent.length + 1) := by
  simp [liveBlock, List.length_flatMap]
  omega

/-- A function like the one of `innerDistance` but for the line break in its body. -/
def brokenDistance : List Char :=
  ("double innerDistance(double a, double b, double c, double d) "
    ++ "\x7b double s = sin(a) + cos(b);\n return s + atan2(c, d); \x7d\n").toList

/-- Two functions with one signature and one indentation, and with bodies of one line and of two,
are approximated by bodies with different code.
-/
theorem lines_counted_in_live_block
    : ∃ f g : Function, idiom.findAll innerDistance = [f] ∧ idiom.findAll brokenDistance = [g]
      ∧ f.signature = g.signature ∧ indentation f.body = indentation g.body
      ∧ clean (planarBlock .standard smallArea f) ≠ clean (planarBlock .standard smallArea g) := by
  let head := "double innerDistance(double a, double b, double c, double d) ".toList
  let f : Function := ⟨head, "double", ['a'], ['b'], ['c'], ['d'],
    " return sin(a) + cos(b) + atan2(c, d); ".toList⟩
  let g : Function := ⟨head, "double", ['a'], ['b'], ['c'], ['d'],
    " double s = sin(a) + cos(b);\n return s + atan2(c, d); ".toList⟩
  have found : idiom.findAll innerDistance = [f] := by decide +kernel
  have found' : idiom.findAll brokenDistance = [g] := by decide +kernel
  refine ⟨f, g, found, found', by decide, by decide, fun same => ?_⟩
  have auditable : Auditable .standard smallArea f :=
    auditable_of_findAll (found ▸ List.mem_singleton_self f)
  have auditable' : Auditable .standard smallArea g :=
    auditable_of_findAll (found' ▸ List.mem_singleton_self g)
  rw [auditable.live, auditable'.live, show (filledLines f.body).length = 1 by decide,
    show (filledLines g.body).length = 2 by decide,
    show g.signature = f.signature by decide,
    show indentation g.body = indentation f.body by decide] at same
  have lengths := congrArg List.length same
  rw [length_liveBlock _ _ 1, length_liveBlock _ _ 2] at lengths
  omega

end RangeTuner.Rewrite.PlanarDistance
