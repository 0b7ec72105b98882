import RangeTuner.Proofs.Rewrite.PlanarShape
import RangeTuner.Proofs.Rewrite.Run
import RangeTuner.Proofs.Rewrite.Tame
import RangeTuner.Proofs.Text.Places

/-! Approximating distances a second time. The new body of a function has the words that keep it
from being approximated again, but the lines of its old body are still there, as comments, and a
function may begin among them. Main statement: the second time changes something exactly where one
does.
-/

namespace RangeTuner.Rewrite.PlanarDistance

open RangeTuner.Decimal RangeTuner.Spec RangeTuner.Text

variable {settings : Settings} {facts : Facts}

-----------------------------------------------------------------------------------------
-- The parts of an approximated function
-----------------------------------------------------------------------------------------

/-- The lines of an approximated body before the comments. -/
def newLines (settings : Settings) (facts : Facts) (f : Function) : List Char :=
  (planarLines settings facts f).flatMap fun line =>
    indentation f.body ++ (line.toList ++ ['\n'])

/-- The comments with the lines of the old body. -/
def keptLines (f : Function) : List Char :=
  (filledLines f.body).flatMap fun line =>
    indentation f.body ++ ('/' :: '/' :: commentText line ++ ['\n'])

/-- An approximated body in its braces. -/
def planarBlock (settings : Settings) (facts : Facts) (f : Function) : List Char :=
  '{' :: '\n' :: (newLines settings facts f ++ (keptLines f ++ ['}']))

theorem planar_eq (settings : Settings) (facts : Facts) (f : Function)
    : planar settings facts f = f.head ++ planarBlock settings facts f := by
  simp [planar, planarBlock, newLines, keptLines, List.flatMap_map]

/-- A text without closing braces that has the words of an approximated body. -/
structure Telling (s : List Char) : Prop where
  unclosed : '}' ∉ s
  tells : occurs note.toList s = true

/-- What stands up to a closing brace starts with any telling text that stands there. -/
theorem Telling.isPrefix {start more inside rest : List Char} (telling : Telling start)
    (same : start ++ more = inside ++ '}' :: rest)
    : start <+: inside := by
  rcases append_cons_eq_append_iff.mp same.symm with ⟨beyond, within, -⟩ | ⟨beyond, rfl, -⟩
  · exact absurd (by simp [within]) telling.unclosed
  · exact List.prefix_append _ _

/-- No telling text is part of a body that can be approximated. -/
theorem Telling.not_infix {s body : List Char} (telling : Telling s)
    (circle : isGreatCircle body = true)
    : ¬ s <:+: body := by
  intro within
  simp [isGreatCircle, occurs_of_infix telling.tells within] at circle

/-- Texts without closing braces can be put before a telling one. -/
theorem Telling.prepend {before s : List Char} (telling : Telling s) (unclosed : '}' ∉ before)
    : Telling (before ++ s) :=
  ⟨List.not_mem_append unclosed telling.unclosed,
    occurs_of_infix telling.tells (List.suffix_append _ _).isInfix⟩

theorem isBlank_of_mem_indentation {body : List Char} {c : Char}
    (member : c ∈ indentation body)
    : isBlank c = true := by
  simp only [indentation] at member
  split at member
  · rw [List.eq_of_mem_replicate member]
    decide
  · exact List.all_eq_true.mp List.all_takeWhile c member

/-- An approximated body tells what it is. -/
theorem planarBlock_begins (settings : Settings) (facts : Facts) (f : Function)
    : ∃ start more, planarBlock settings facts f = '{' :: (start ++ more) ∧ Telling start := by
  have banner : Telling "// rangeopt: planar distance approximation ".toList :=
    ⟨by decide, by decide⟩
  obtain ⟨first, others, lines, more, begins⟩ : ∃ first others,
      planarLines settings facts f = first :: others
      ∧ ∃ more, first.toList = "// rangeopt: planar distance approximation ".toList ++ more := by
    refine ⟨_, _, rfl, ?_⟩
    simp only [String.toList_append, List.append_assoc]
    exact ⟨_, rfl⟩
  have block : planarBlock settings facts f
      = '{' :: (('\n' :: indentation f.body)
        ++ "// rangeopt: planar distance approximation ".toList ++ (more ++ '\n' ::
          (others.flatMap (fun line => indentation f.body ++ (line.toList ++ ['\n']))
            ++ (keptLines f ++ ['}'])))) := by
    simp [planarBlock, newLines, lines, begins]
  refine ⟨_, _, block, banner.prepend fun member => ?_⟩
  rcases List.mem_cons.mp member with same | blank
  · cases same
  · exact absurd (isBlank_of_mem_indentation blank) (by decide)

-----------------------------------------------------------------------------------------
-- Where no function begins
-----------------------------------------------------------------------------------------

/-- No function begins in the text, whatever stands around it. -/
def Idle (part : List Char) : Prop :=
  ∀ before rest, ¬ idiom.StandsIn before part rest

theorem Idle.append {s t : List Char} (first : Idle s) (second : Idle t)
    : Idle (s ++ t) := by
  intro before rest stands
  rcases Idiom.standsIn_append.mp stands with here | there
  · exact first _ _ here
  · exact second _ _ there

theorem Idle.flatMap {α : Type} {f : α → List Char} {xs : List α} (each : ∀ x ∈ xs, Idle (f x))
    : Idle (xs.flatMap f) := by
  intro before rest stands
  obtain ⟨first, x, last, rfl, here⟩ := Idiom.standsIn_flatMap stands
  exact each x (by simp) _ _ here

theorem Idle.of_quiet {s : List Char} (quiet : quietFrom calm none s = true)
    : Idle s :=
  fun _ _ => spares_planarDistance.not_standsIn (quietFrom_of_none quiet _)

theorem Idle.of_letters {s : List Char} (others : ∀ c ∈ s, c ∉ openingLetters)
    : Idle s :=
  .of_quiet (quietFrom_of_letters others none)

/-- Where the next sign is not the bracket around parameters, no function begins. -/
theorem Idle.of_sign {s finish : List Char} (sign : Char) (ends : finish.getLast? = some sign)
    (other : ¬ IsWordOrBlank sign) (unopened : '(' ∉ s ++ finish)
    : Idle (s ++ finish) := by
  rintro before rest ⟨start, place, whole, filled, read⟩
  obtain ⟨⟨f, length⟩, read⟩ := Option.isSome_iff_exists.mp read
  obtain ⟨more, scanned, -⟩ := Idiom.scan_of_read? read
  obtain ⟨begins, shape⟩ := scan_eq_some scanned
  obtain ⟨opening, parameters, ending, head⟩ := shape.head
  rw [head.whole, List.append_assoc, List.cons_append] at begins
  -- the place goes on to the sign, and the opening of a head up to its bracket
  obtain ⟨between, rfl⟩ : ∃ between, place = between ++ [sign] := by
    refine ⟨place.dropLast, ?_⟩
    have last : place.getLast filled = sign := by
      have same := congrArg List.getLast? whole
      rw [List.getLast?_append, List.getLast?_append, ends,
        List.getLast?_eq_some_getLast filled] at same
      exact (Option.some.inj same).symm
    rw [← last, List.dropLast_append_getLast]
  rcases List.append_eq_append_iff.mp begins with ⟨beyond, opens, -⟩ | ⟨beyond, within, rest⟩
  · refine other (head.opening_words sign ?_)
    rw [opens]
    simp
  · cases beyond with
    | nil =>
        refine other (head.opening_words sign ?_)
        rw [List.append_nil] at within
        rw [← within]
        simp
    | cons c beyond =>
        obtain ⟨rfl, -⟩ := List.cons.inj rest
        refine unopened ?_
        rw [whole, within]
        simp

theorem Idle.number (places : Nat) (x : Float) : Idle (fixed places x).toList := by
  rcases fixed_cases places x with word | figures
  · have quiet : ∀ word ∈ notFinite, quietFrom calm none word = true := by decide
    exact .of_quiet (quiet _ word)
  · exact .of_letters fun c member => not_openingLetter_of_isFigure (figures c member)

theorem Idle.indentation (body : List Char) : Idle (indentation body) := by
  refine .of_letters fun c member letter => ?_
  have blank := isBlank_of_mem_indentation member
  have others : (openingLetters.all fun d => !isBlank d) = true := by decide
  simpa [blank] using List.all_eq_true.mp others c letter

theorem unopened_number (places : Nat) (x : Float) : '(' ∉ (fixed places x).toList :=
  not_mem_fixed (by simp [IsFigure]) (by decide) places x

/-- A product with the difference of two parameters is given to a variable. -/
theorem idle_assignment {target a b factor : List Char} (plain : '(' ∉ target)
    (name : ∀ c ∈ a, isNameCharacter c = true) (name' : ∀ c ∈ b, isNameCharacter c = true)
    (idle : Idle factor)
    : Idle (target ++ "= ".toList ++ ("(".toList ++ a ++ " - ".toList ++ b ++ ")".toList)
      ++ factor) := by
  have unopened : ∀ {name : List Char}, (∀ c ∈ name, isNameCharacter c = true) → '(' ∉ name :=
    fun characters member => absurd (characters _ member) (by decide)
  have assigned : Idle (target ++ ['=']) :=
    .of_sign '=' rfl (by decide) (List.not_mem_append plain (by decide))
  have minuend : Idle (a ++ " -".toList) :=
    .of_sign '-' (by decide) (by decide) (List.not_mem_append (unopened name) (by decide))
  have subtrahend : Idle (" ".toList ++ b ++ ")".toList) :=
    .of_sign ')' (by decide) (by decide)
      (List.not_mem_append (List.not_mem_append (by decide) (unopened name')) (by decide))
  have gap : Idle " (".toList := .of_quiet (by decide)
  simpa using assigned.append (gap.append (minuend.append (subtrahend.append idle)))

/-- No function begins in the new lines of a body. -/
theorem idle_newLines {f : Function} {read : List Char} (shape : Approximable f read)
    : Idle (newLines settings facts f) := by
  have type : '(' ∉ f.type.toList := by
    rcases List.mem_pair.mp shape.type with same | same <;>
      · rw [same]
        decide
  have names := shape.names
  simp only [List.forall_mem_cons] at names
  obtain ⟨latitude₁, longitude₁, latitude₂, longitude₂, -⟩ := names
  have line : ∀ line ∈ planarLines settings facts f, Idle line.toList := by
    unfold planarLines
    simp only [List.forall_mem_cons, String.toList_append, String.toList_ofList]
    refine ⟨?_, ?_, ?_, ?_, ?_, .of_quiet (by decide), .of_quiet (by decide), by simp⟩
    · refine (Idle.append (.of_quiet (by decide)) (.number 1 _)).append (.of_letters ?_)
      simp [openingLetters]
    · refine .of_sign ';' (by decide) (by decide) ?_
      simp only [List.mem_append, not_or]
      exact ⟨⟨⟨⟨by decide, type⟩, by decide⟩, unopened_number _ _⟩, by decide⟩
    · refine .of_sign '/' (by decide) (by decide) ?_
      simp only [List.mem_append, not_or]
      exact ⟨⟨⟨⟨⟨⟨by decide, type⟩, by decide⟩, unopened_number _ _⟩, by decide⟩,
        unopened_number _ _⟩, by decide⟩
    · have target : '(' ∉ f.type.toList ++ " dlat_m ".toList :=
        List.not_mem_append type (by decide)
      simpa using idle_assignment target latitude₂ latitude₁ (.of_quiet (by decide))
    · have target : '(' ∉ f.type.toList ++ " dlon_m ".toList :=
        List.not_mem_append type (by decide)
      simpa using idle_assignment target longitude₂ longitude₁ (.of_quiet (by decide))
  refine .flatMap fun text member => ?_
  exact (Idle.indentation _).append ((line text member).append (.of_quiet (by decide)))

-----------------------------------------------------------------------------------------
-- Functions outside the new bodies
-----------------------------------------------------------------------------------------

/-- A function that is read before a new body ends before it. -/
theorem scan_before_block {common start more rest : List Char} {f : Function}
    (ends : HeadEnds common) (telling : Telling start)
    (scanned : idiom.scan (common ++ '{' :: (start ++ more)) = some (f, rest))
    : ∃ beyond, common = f.head ++ '{' :: (f.body ++ '}' :: beyond)
      ∧ rest = beyond ++ '{' :: (start ++ more) := by
  obtain ⟨whole, shape⟩ := scan_eq_some scanned
  obtain ⟨opening, parameters, ending, head⟩ := shape.head
  have apart : ∀ {rest}, start ++ more ≠ f.body ++ '}' :: rest :=
    fun same => telling.not_infix shape.great_circle (telling.isPrefix same).isInfix
  rcases append_cons_eq_append_iff.mp whole with ⟨beyond, within, -⟩ | ⟨before, rfl, opens⟩
  · exact absurd ⟨beyond, by simp [within]⟩ (ends head)
  rcases List.cons_eq_append_iff.mp opens with ⟨rfl, same⟩ | ⟨before, rfl, goes⟩
  · exact absurd (List.cons.inj same).2 apart
  -- the body is closed before the new one, whose beginning would be a part of it
  rcases append_cons_eq_append_iff.mp goes with ⟨beyond, rfl, same⟩ | ⟨inner, inside, closes⟩
  · exact ⟨beyond, rfl, same⟩
  · have told : Telling (['{'] ++ start) := telling.prepend (by decide)
    have begins : '{' :: start <+: inner := told.isPrefix closes
    exact absurd (inside ▸ begins.isInfix.trans (List.suffix_append _ _).isInfix)
      (told.not_infix shape.great_circle)

/-- A function that is read before a new body is read before an old one in its place. -/
theorem scan_before_old {common new rest : List Char} {f g : Function} (ends : HeadEnds common)
    (scanned : idiom.scan (common ++ (planarBlock settings facts g ++ new)) = some (f, rest))
    (old : List Char)
    : ∃ beyond, common = f.head ++ '{' :: (f.body ++ '}' :: beyond)
      ∧ idiom.scan (common ++ '{' :: old) = some (f, beyond ++ '{' :: old) := by
  obtain ⟨start, more, block, telling⟩ := planarBlock_begins settings facts g
  rw [block, List.cons_append, List.append_assoc] at scanned
  obtain ⟨beyond, rfl, rfl⟩ := scan_before_block ends telling scanned
  refine ⟨beyond, rfl, ?_⟩
  have found : idiom.scan ((f.head ++ '{' :: (f.body ++ ['}']))
      ++ (beyond ++ '{' :: (start ++ (more ++ new))))
      = some (f, beyond ++ '{' :: (start ++ (more ++ new))) := by
    simpa using scanned
  have alike : (beyond ++ '{' :: (start ++ (more ++ new))).head?
      = (beyond ++ '{' :: old).head? := by
    cases beyond <;> rfl
  simpa using idiom_near.again found alike

/-- No function begins in the head of an approximated one. -/
theorem not_standsIn_head {f : Function} {read new : List Char} (shape : Approximable f read)
    (before : Option Char)
    : ¬ idiom.StandsIn before f.head (planarBlock settings facts f ++ new) := by
  rintro ⟨start, place, whole, filled, read⟩
  obtain ⟨-, g, rest, scanned⟩ := (Idiom.isSome_read?_iff reads_filled).mp read
  obtain ⟨opening, parameters, ending, head⟩ := shape.head
  have ends : HeadEnds place := head.headEnds [] ⟨start, whole.symm⟩
  obtain ⟨beyond, within, again⟩ := scan_before_old ends scanned []
  obtain ⟨-, shape'⟩ := scan_eq_some again
  obtain ⟨opening', parameters', ending', head'⟩ := shape'.head
  -- the head would have a brace behind its brackets
  have split : f.head = (start ++ opening' ++ '(' :: parameters')
      ++ ')' :: (ending' ++ '{' :: (g.body ++ '}' :: beyond)) := by
    rw [whole, within, head'.whole]
    simp
  exact absurd (head.blank_of_close split '{' (by simp)) (by decide)

/-- A hit and what it is replaced by end alike. -/
theorem getLast?_replaced {text : List Char} {piece : Piece Function}
    (member : piece ∈ idiom.pieces text)
    : (piece.replaced (planar settings facts)).getLast? = piece.text.getLast? := by
  cases piece with
  | plain c => rfl
  | hit f lexeme =>
      have shape := Idiom.forall_hits reads_idiom member
      simp [Piece.replaced, Piece.text, shape.whole, planar, List.getLast?_cons]

/-- At a character that stays, a function can be read only if one could be read there before. -/
theorem read?_at_plain {text : List Char} {first last : List (Piece Function)} {c : Char}
    (split : idiom.pieces text = first ++ .plain c :: last)
    : idiom.read? ((first.flatMap (Piece.replaced (planar settings facts))).getLast?)
        (c :: last.flatMap (Piece.replaced (planar settings facts))) = none := by
  have unread := Idiom.read?_of_split split
  by_contra read
  rw [← ne_eq, Option.ne_none_iff_isSome, Idiom.isSome_read?_iff reads_filled] at read
  obtain ⟨admitted, g, rest, scanned⟩ := read
  have alike : ∀ piece ∈ first, (piece.replaced (planar settings facts)).getLast?.map isWord
      = piece.text.getLast?.map isWord :=
    fun piece member => congrArg _ (getLast?_replaced (split ▸ List.mem_append_left _ member))
  have opening : idiom.opening = .wordStart := rfl
  rw [opening, admits_flatMap_congr alike, ← opening] at admitted
  have found : ∃ rest, idiom.scan (c :: last.flatMap Piece.text) = some (g, rest) := by
    rcases Idiom.characters_or_hit last with ⟨s, rfl⟩ | ⟨s, f, lexeme, last, rfl⟩
    · simp only [List.flatMap_map, Piece.text, Piece.replaced] at scanned ⊢
      exact ⟨rest, scanned⟩
    · have member : .hit f lexeme ∈ idiom.pieces text := by simp [split]
      have shape := Idiom.forall_hits reads_idiom member
      obtain ⟨opening, parameters, ending, head⟩ := shape.head
      have ends : HeadEnds (c :: s ++ f.head) := head.headEnds _ List.suffix_rfl
      have new : c :: (s.map Piece.plain ++ Piece.hit f lexeme :: last).flatMap
            (Piece.replaced (planar settings facts))
          = c :: s ++ f.head ++ (planarBlock settings facts f
            ++ last.flatMap (Piece.replaced (planar settings facts))) := by
        simp [List.flatMap_map, Piece.replaced, planar_eq]
      have old : c :: (s.map Piece.plain ++ Piece.hit f lexeme :: last).flatMap Piece.text
          = c :: s ++ f.head ++ '{' :: (f.body ++ '}' :: last.flatMap Piece.text) := by
        simp [List.flatMap_map, Piece.text, shape.whole]
      rw [new] at scanned
      obtain ⟨beyond, -, again⟩ := scan_before_old ends scanned
        (f.body ++ '}' :: last.flatMap Piece.text)
      exact ⟨_, old ▸ again⟩
  have read := (Idiom.isSome_read?_iff reads_filled).mpr ⟨admitted, g, found⟩
  simp only [List.take_zero, List.nil_append, Option.or_none] at unread
  simp [unread] at read

/-- The lines of the old body stand behind a line feed. -/
theorem getLast?_newLines (settings : Settings) (facts : Facts) (f : Function)
    : (newLines settings facts f).getLast? = some '\n' := by
  have filled : planarLines settings facts f ≠ [] := nofun
  obtain ⟨first, finish, lines⟩ := (List.eq_nil_or_concat _).resolve_left filled
  simp [newLines, lines, List.getLast?_cons]

/-- Of an approximated function, a function begins at most among the lines of the old body. -/
theorem standsIn_planar_iff {f : Function} {read new : List Char} (shape : Approximable f read)
    (before : Option Char)
    : idiom.StandsIn before (planar settings facts f) new
      ↔ idiom.StandsIn (some '\n') (keptLines f) ('}' :: new) := by
  have opening : Idle ['{', '\n'] := .of_quiet (by decide)
  have closing : Idle ['}'] := .of_quiet (by decide)
  have block : planarBlock settings facts f
      = ['{', '\n'] ++ (newLines settings facts f ++ (keptLines f ++ ['}'])) := rfl
  rw [planar_eq, Idiom.standsIn_append]
  simp only [not_standsIn_head shape, false_or]
  rw [block, Idiom.standsIn_append, Idiom.standsIn_append, Idiom.standsIn_append]
  simp only [opening _ _, idle_newLines shape _ _, closing _ _, false_or, or_false,
    getLast?_newLines, Option.some_or, List.singleton_append]

/-- Of some function that is approximated, another one begins among the comments with the lines of
its old body. What stands behind the comments is part of the text that is read.
-/
def LeavesFunction (settings : Settings) (facts : Facts) (text : List Char) : Prop :=
  ∃ first f lexeme last, idiom.pieces text = first ++ .hit f lexeme :: last
    ∧ idiom.StandsIn (some '\n') (keptLines f)
      ('}' :: last.flatMap (Piece.replaced (planar settings facts)))

/-- A function that can be approximated is left only among the lines of an old body. -/
theorem occursIn_rewrite_iff (settings : Settings) (facts : Facts) (text : List Char)
    : idiom.occursIn (PlanarDistance.rewrite settings facts text) = true
      ↔ LeavesFunction settings facts text := by
  rw [Idiom.occursIn_iff_standsIn, PlanarDistance.rewrite, Idiom.replace_eq_replaced]
  constructor
  · intro stands
    obtain ⟨first, piece, last, split, here⟩ := Idiom.standsIn_flatMap stands
    rw [List.append_nil, Option.or_none] at here
    cases piece with
    | plain c =>
        rw [Piece.replaced, Idiom.standsIn_cons, List.nil_append, read?_at_plain split] at here
        exact absurd (here.resolve_left (by simp)) Idiom.not_standsIn_nil
    | hit f lexeme =>
        have shape : Approximable f lexeme := Idiom.forall_hits reads_idiom (by rw [split]; simp)
        exact ⟨first, f, lexeme, last, split, (standsIn_planar_iff shape _).mp here⟩
  · rintro ⟨first, f, lexeme, last, split, stands⟩
    have shape : Approximable f lexeme := Idiom.forall_hits reads_idiom (by rw [split]; simp)
    rw [split, List.flatMap_append, List.flatMap_cons, Idiom.standsIn_append,
      Idiom.standsIn_append]
    refine .inr (.inl ((standsIn_planar_iff shape _).mpr ?_))
    rwa [List.append_nil]

/-- Approximating changes a text with functions, since the new bodies begin another way. -/
theorem rewrite_eq_self_iff {text : List Char}
    : PlanarDistance.rewrite settings facts text = text ↔ idiom.occursIn text = false := by
  refine ⟨Idiom.not_occursIn_of_replace fun f lexeme member more other same => ?_,
    fun absent => Idiom.replace_of_not_occursIn absent _⟩
  have shape := Idiom.forall_hits reads_idiom member
  obtain ⟨start, rest, block, telling⟩ := planarBlock_begins settings facts f
  rw [planar_eq, shape.whole, block, List.append_assoc, List.append_assoc] at same
  have body : start ++ (rest ++ more) = f.body ++ '}' :: other := by
    simpa using List.append_cancel_left same
  exact telling.not_infix shape.great_circle (telling.isPrefix body).isInfix

end RangeTuner.Rewrite.PlanarDistance

namespace RangeTuner.Rewrite

open RangeTuner.Spec RangeTuner.Text PlanarDistance

/-- Main statement: approximating distances a second time changes nothing, unless the facts
authorize it and the first time leaves a function among the comments.
-/
theorem planarDistance_again (settings : Settings) (facts : Facts) (text : List Char)
    : transform settings facts .planarDistance (transform settings facts .planarDistance text)
        = transform settings facts .planarDistance text
      ↔ (authorizes settings facts .planarDistance = true
        → ¬ LeavesFunction settings facts text) := by
  rw [transform_again_iff]
  refine imp_congr_right fun _ => ?_
  rw [rewrite, rewrite, rewrite_eq_self_iff, ← occursIn_rewrite_iff, Bool.not_eq_true]

/-- The facts of a small area. -/
def smallArea : Facts :=
  Facts.empty.insert Facts.area 75.0

/-- A distance function. -/
def innerDistance : List Char :=
  ("double innerDistance(double a, double b, double c, double d) "
    ++ "\x7b return sin(a) + cos(b) + atan2(c, d); \x7d\n").toList

/-- The head of another one. -/
def outerHead : List Char :=
  "double outerDistance(double a, double b, double c, double d) ".toList

/-- A distance function whose body holds another one. -/
def nestedDistances : List Char :=
  outerHead ++ "\x7b\n    ".toList ++ innerDistance ++ "\x7d\n".toList

deriving instance DecidableEq for PlanarDistance.Function, Piece

/-- The outer function is approximated first, and then the inner one inside its comment. -/
theorem nestedDistances_approximated_again
    : transform .standard smallArea .planarDistance
        (transform .standard smallArea .planarDistance nestedDistances)
      ≠ transform .standard smallArea .planarDistance nestedDistances := by
  have authorized : authorizes .standard smallArea .planarDistance = true := by decide +kernel
  have leaves : LeavesFunction .standard smallArea nestedDistances := by
    refine ⟨[], ⟨outerHead, "double", ['a'], ['b'], ['c'], ['d'],
      "\n    ".toList ++ innerDistance⟩, nestedDistances.dropLast, [.plain '\n'],
      by decide +kernel, "    //    ".toList, innerDistance, ?_, by decide, by decide +kernel⟩
    decide +kernel
  have occurs := (occursIn_rewrite_iff _ _ _).mpr leaves
  rw [ne_eq, transform_again_iff, rewrite, rewrite, rewrite_eq_self_iff, occurs]
  simp [authorized]

end RangeTuner.Rewrite
