import RangeTuner.Proofs.Text.BlockBraces
import RangeTuner.Proofs.Text.Lookahead
import RangeTuner.Rewrite.PlanarDistance

/-! The shape of distance functions. A function is read as a head, which ends in the brackets around
its parameters, and a body in braces. Main statements: every text that is read as a function has
this shape, and it is read as the same function whatever follows.
-/

namespace RangeTuner.Rewrite.PlanarDistance

open RangeTuner.Text

-----------------------------------------------------------------------------------------
-- The shape of a function
-----------------------------------------------------------------------------------------

/-- A character of words or between them. -/
def IsWordOrBlank (c : Char) : Prop :=
  isWord c = true ∨ isBlank c = true

instance (c : Char) : Decidable (IsWordOrBlank c) :=
  inferInstanceAs (Decidable (_ ∨ _))

/-- A bracket around parameters. -/
def isBracket (c : Char) : Bool :=
  c == '(' || c == ')'

/-- The head of a function: words, parameters in brackets, and blanks. -/
structure HeadShape (head opening parameters ending : List Char) : Prop where
  whole : head = opening ++ '(' :: (parameters ++ ')' :: ending)
  opening_words : ∀ c ∈ opening, IsWordOrBlank c
  parameters_unbracketed : ∀ c ∈ parameters, isBracket c = false
  ending_blank : ∀ c ∈ ending, isBlank c = true

/-- What is read as a function whose distance is approximated. -/
structure Approximable (f : Function) (read : List Char) : Prop where
  whole : read = f.head ++ '{' :: (f.body ++ ['}'])
  head : ∃ opening parameters ending, HeadShape f.head opening parameters ending
  type : f.type ∈ ["double", "float"]
  names : ∀ name ∈ [f.latitude₁, f.longitude₁, f.latitude₂, f.longitude₂],
    ∀ c ∈ name, isNameCharacter c = true
  great_circle : isGreatCircle f.body = true

-----------------------------------------------------------------------------------------
-- Heads and braces
-----------------------------------------------------------------------------------------

section

variable {head opening parameters ending start more : List Char}

/-- Behind a closing bracket, a head has only blanks. -/
theorem HeadShape.blank_of_close (shape : HeadShape head opening parameters ending)
    (split : head = start ++ ')' :: more)
    : ∀ c ∈ more, isBlank c = true := by
  have before : ')' ∉ opening ++ '(' :: parameters := by
    simp only [List.mem_append, List.mem_cons, not_or]
    refine ⟨fun member => ?_, by decide, fun member => ?_⟩
    · exact absurd (shape.opening_words _ member) (by decide)
    · exact absurd (shape.parameters_unbracketed _ member) (by decide)
  have same : start ++ ')' :: more = (opening ++ '(' :: parameters) ++ ')' :: ending := by
    rw [← split, shape.whole]
    simp
  rcases append_cons_eq_append_iff.mp same with ⟨beyond, within, -⟩ | ⟨beyond, -, closes⟩
  · exact absurd (by simp [within]) before
  rcases List.cons_eq_append_iff.mp closes with ⟨rfl, ends⟩ | ⟨beyond, rfl, ends⟩
  · obtain rfl := (List.cons.inj ends).2
    exact shape.ending_blank
  · exact fun c member => shape.ending_blank c (by simp [ends, member])

/-- Before a brace, a head has an opening bracket. -/
theorem HeadShape.mem_of_brace (shape : HeadShape head opening parameters ending)
    (split : head = start ++ '{' :: more)
    : '(' ∈ start := by
  have before : '{' ∉ opening :=
    fun member => absurd (shape.opening_words _ member) (by decide)
  have same : start ++ '{' :: more = opening ++ '(' :: (parameters ++ ')' :: ending) := by
    rw [← split, shape.whole]
  rcases append_cons_eq_append_iff.mp same with ⟨beyond, within, -⟩ | ⟨beyond, rfl, rest⟩
  · exact absurd (by simp [within]) before
  rcases List.cons_eq_append_iff.mp rest with ⟨rfl, other⟩ | ⟨beyond, rfl, -⟩
  · cases other
  · simp

/-- No head of a function goes on with a brace behind the text. -/
def HeadEnds (s : List Char) : Prop :=
  ∀ {head opening parameters ending}, HeadShape head opening parameters ending
    → ¬ s ++ ['{'] <+: head

/-- No head goes on with a brace behind another head, or behind the end of one. -/
theorem HeadShape.headEnds (shape : HeadShape head opening parameters ending)
    (before : List Char) {s : List Char} (ends : s <:+ before ++ head)
    : HeadEnds s := by
  rintro head' opening' parameters' ending' shape' ⟨more, whole⟩
  have closes : ')' :: ending <:+ before ++ head := by
    rw [shape.whole]
    exact ⟨before ++ (opening ++ '(' :: parameters), by simp⟩
  have behind : (∃ start, s = start ++ ')' :: ending) ∨ s <:+ ending := by
    rcases List.suffix_or_suffix_of_suffix ends closes with within | ⟨start, same⟩
    · exact (List.suffix_cons_iff.mp within).imp_left fun same => ⟨[], same⟩
    · exact .inl ⟨start, same.symm⟩
  rcases behind with ⟨start, rfl⟩ | blank
  · have split : head' = start ++ ')' :: (ending ++ '{' :: more) := by simp [← whole]
    exact absurd (shape'.blank_of_close split '{' (by simp)) (by decide)
  · have split : head' = s ++ '{' :: more := by simp [← whole]
    have bracket := blank.subset (shape'.mem_of_brace split)
    exact absurd (shape.ending_blank _ bracket) (by decide)

end

-----------------------------------------------------------------------------------------
-- What is read
-----------------------------------------------------------------------------------------

/-- A type is one of two words. -/
theorem returnType_eq_some_iff {s rest : List Char} {type : String}
    : returnType s = some (type, rest)
      ↔ type ∈ ["double", "float"] ∧ s = type.toList ++ rest := by
  have branch : ∀ word : String,
      ((do Scanner.literal word; return word) : Scanner String) s
        = (after? word.toList s).map (word, ·) := by
    intro word
    simp only [bind, StateT.bind, Scanner.literal, pure, StateT.pure]
    cases after? word.toList s <;> rfl
  constructor
  · intro came
    rcases Scanner.orElse_eq_some came with came | came <;>
      · rw [branch] at came
        obtain ⟨tail, found, same⟩ := Option.map_eq_some_iff.mp came
        obtain ⟨rfl, rfl⟩ := Prod.mk.inj same
        exact ⟨by simp, after?_eq_some_iff.mp found⟩
  · rintro ⟨known, rfl⟩
    rcases List.mem_pair.mp known with rfl | rfl <;> rfl

theorem returnType_near : returnType.Near := by
  refine ⟨fun s type rest came => ?_, fun {read rest other type} came _ => ?_⟩
  · exact ⟨type.toList, (returnType_eq_some_iff.mp came).2, by simp⟩
  · obtain ⟨known, whole⟩ := returnType_eq_some_iff.mp came
    obtain rfl := List.append_cancel_right whole
    exact returnType_eq_some_iff.mpr ⟨known, rfl⟩

theorem head_near : head.Near :=
  returnType_near.bind fun _ => Scanner.Near.blanks1.bind fun _ => Scanner.Near.word.bind fun _ =>
    Scanner.Near.guard.bind fun _ => Scanner.Near.blanks.bind fun _ =>
      (Scanner.Near.literal _).bind fun _ => (Scanner.Near.run _).bind fun _ =>
        (Scanner.Near.literal _).bind fun _ => Scanner.Near.blanks.bind fun _ => .pure _

theorem block_near : Scanner.Near fun s => block? s := by
  refine ⟨fun s inside rest h => ?_, fun {read rest other inside} h _ => ?_⟩
  · exact ⟨inside ++ ['}'], by simpa using eq_append_of_splitAtClose? h, by simp⟩
  · have whole : read ++ rest = (inside ++ ['}']) ++ rest := by
      simpa using eq_append_of_splitAtClose? h
    obtain rfl := List.append_cancel_right whole
    simpa [block?] using splitAtClose?_append h other

/-- A function is read as the same one whatever follows. -/
theorem idiom_near : idiom.scan.Near := by
  refine head_near.lexeme.bind fun ⟨⟨type, parameters⟩, head⟩ =>
    (Scanner.Near.literal _).bind fun _ => block_near.bind fun body =>
      Scanner.Near.guard.bind fun _ => ?_
  split
  · exact .pure _
  · exact .failure

/-- A head has the shape of one, with words and blanks before its first bracket. -/
theorem reads_head
    : head.Reads fun found read => found.1 ∈ ["double", "float"]
        ∧ ∃ opening parameters ending, HeadShape read opening parameters ending := by
  have type : returnType.Reads fun type read =>
      type ∈ ["double", "float"] ∧ ∀ c ∈ read, isWord c = true := by
    intro s type rest typed
    obtain ⟨known, rfl⟩ := returnType_eq_some_iff.mp typed
    refine ⟨type.toList, rfl, known, List.all_eq_true.mp ?_⟩
    rcases List.mem_pair.mp known with rfl | rfl <;> decide
  have blanks : Scanner.blanks.ReadsOnly fun c => isBlank c = true := .blanks fun _ blank => blank
  have blanks1 : Scanner.blanks1.ReadsOnly fun c => isBlank c = true :=
    (Scanner.ReadsOnly.run1 fun _ blank => blank).bind fun _ => .pure _
  refine type.bind fun type start ⟨known, startWord⟩ => ?_
  refine Scanner.Reads.bind blanks1 fun _ space spaceBlank => ?_
  refine (Scanner.Reads.run1 _).bind fun name read ⟨named, nameWord⟩ => ?_
  refine (Scanner.Reads.guard _).bind fun _ nothing ⟨_, unread⟩ => ?_
  refine Scanner.Reads.bind blanks fun _ gap gapBlank => ?_
  refine (Scanner.Reads.literal _).bind fun _ bracket opened => ?_
  refine (Scanner.Reads.run _).bind fun parameters inside ⟨ran, unbracketed⟩ => ?_
  refine (Scanner.Reads.literal _).bind fun _ bracket' closed => ?_
  refine Scanner.Reads.bind blanks fun _ ending endingBlank => ?_
  refine .pure ⟨known, start ++ (space ++ (name ++ gap)), parameters, ending, ?_, ?_, ?_,
    endingBlank⟩
  · simp [named, unread, opened, ran, closed]
  · simp only [List.forall_mem_append]
    exact ⟨fun c member => .inl (startWord c member), fun c member => .inr (spaceBlank c member),
      fun c member => .inl (nameWord c member), fun c member => .inr (gapBlank c member)⟩
  · intro c member
    simpa [isBracket] using unbracketed c member

/-- The names of parameters have the characters of names. -/
theorem isNameCharacter_of_mem {parameters name : List Char}
    (member : name ∈ parameterNames parameters)
    : ∀ c ∈ name, isNameCharacter c = true := by
  obtain ⟨declaration, -, named⟩ := List.mem_filterMap.mp member
  simp only [parameterName?] at named
  split at named
  next => cases named
  next =>
    cases named
    exact fun c inName =>
      List.all_eq_true.mp List.all_takeWhile c (List.mem_reverse.mp inName)

/-- Every function that is read can be approximated. -/
theorem reads_idiom : idiom.scan.Reads Approximable := by
  refine reads_head.lexeme.bind fun ⟨⟨type, parameters⟩, head⟩ read ⟨same, known, shape⟩ => ?_
  refine (Scanner.Reads.literal _).bind fun _ brace opened => ?_
  have block : Scanner.Reads (fun inside read => read = inside ++ ['}']) fun s => block? s :=
    fun s inside rest h => ⟨inside ++ ['}'], by simpa using eq_append_of_splitAtClose? h, rfl⟩
  refine block.bind fun body block closed => ?_
  refine (Scanner.Reads.guard _).bind fun _ nothing ⟨circle, unread⟩ => ?_
  split
  next named =>
    obtain rfl : head = read := same
    refine .pure ⟨?_, shape, known, fun name member => ?_, circle⟩
    · simp [opened, closed, unread]
    · exact isNameCharacter_of_mem (named ▸ member)
  next => exact .failure

/-- What the idiom finds starts the text. -/
theorem scan_eq_some {s rest : List Char} {f : Function}
    (scanned : idiom.scan s = some (f, rest))
    : s = f.head ++ '{' :: (f.body ++ '}' :: rest)
      ∧ Approximable f (f.head ++ '{' :: (f.body ++ ['}'])) := by
  obtain ⟨read, rfl, shape⟩ := reads_idiom _ _ _ scanned
  refine ⟨?_, shape.whole ▸ shape⟩
  rw [shape.whole]
  simp

/-- No function is found in an empty text. -/
theorem reads_filled : idiom.scan.Reads fun _ read => read ≠ [] := by
  intro s f rest scanned
  obtain ⟨read, whole, shape⟩ := reads_idiom _ _ _ scanned
  exact ⟨read, whole, by simp [shape.whole]⟩

end RangeTuner.Rewrite.PlanarDistance
