import RangeTuner.Json.Writer
import RangeTuner.Proofs.Json.Number

/-! Reading what is written. The text of a value is cut into its tokens, and these are put together
as the value. Main statement: the compact text of a value without garbled strings, whose numbers
are numbers, is read as that value.
-/

namespace RangeTuner.Json

-----------------------------------------------------------------------------------------
-- Values that can be written
-----------------------------------------------------------------------------------------

mutual

/-- Every string names characters, and every number is written as one and is one that is held. -/
def Proper : Json → Prop
  | .garbled => False
  | .number text => (literal? text.toList).isSome = true ∧ (Json.number text).isNumber = true
  | .array items => ProperItems items
  | .object members => ProperMembers members
  | _ => True

/-- Every item of an array is proper. -/
def ProperItems : List Json → Prop
  | [] => True
  | item :: rest => item.Proper ∧ ProperItems rest

/-- Every member of an object is proper. -/
def ProperMembers : List (String × Json) → Prop
  | [] => True
  | (_, item) :: rest => item.Proper ∧ ProperMembers rest

end

theorem proper_array_iff {items : List Json}
    : (Json.array items).Proper ↔ ∀ item ∈ items, item.Proper := by
  rw [Proper]
  induction items with
  | nil => simp [ProperItems]
  | cons item rest ih => simp [ProperItems, ih]

theorem proper_object_iff {members : List (String × Json)}
    : (Json.object members).Proper ↔ ∀ member ∈ members, member.2.Proper := by
  rw [Proper]
  induction members with
  | nil => simp [ProperMembers]
  | cons member rest ih => simp [ProperMembers, ih]

mutual

/-- A proper value is sound, by induction on the value. -/
theorem isSound_of_proper : (j : Json) → j.Proper → j.isSound = true
  | .null, _ | .bool _, _ | .string _, _ => rfl
  | .number _, proper => proper.2
  | .array items, proper => areSound_of_proper items proper
  | .object members, proper => membersAreSound_of_proper members proper

theorem areSound_of_proper : (items : List Json) → ProperItems items → areSound items = true
  | [], _ => rfl
  | item :: rest, ⟨proper, others⟩ => by
      rw [areSound, isSound_of_proper item proper, areSound_of_proper rest others, Bool.true_and]

theorem membersAreSound_of_proper
    : (members : List (String × Json)) → ProperMembers members → membersAreSound members = true
  | [], _ => rfl
  | (_, item) :: rest, ⟨proper, others⟩ => by
      rw [membersAreSound, isSound_of_proper item proper, membersAreSound_of_proper rest others,
        Bool.true_and]

end

-----------------------------------------------------------------------------------------
-- Tokens
-----------------------------------------------------------------------------------------

mutual

/-- The tokens that a value is written with. -/
def tokens : Json → List Token
  | .array items => .openArray :: (tokensOfItems items ++ [.closeArray])
  | .object members => .openObject :: (tokensOfMembers members ++ [.closeObject])
  | j => [.leaf j]

/-- The tokens of the items of an array, with commas between them. -/
def tokensOfItems : List Json → List Token
  | [] => []
  | [item] => tokens item
  | item :: rest => tokens item ++ .comma :: tokensOfItems rest

/-- The tokens of the members of an object, with commas between them. -/
def tokensOfMembers : List (String × Json) → List Token
  | [] => []
  | [(name, item)] => .leaf (.string name) :: .colon :: tokens item
  | (name, item) :: rest =>
      .leaf (.string name) :: .colon :: (tokens item ++ .comma :: tokensOfMembers rest)

end

-----------------------------------------------------------------------------------------
-- Cutting into tokens
-----------------------------------------------------------------------------------------

/-- The tokens of a text that ends here, backwards. -/
def Cut.close? : Cut → Option (List Token)
  | (tokens, .between) => some tokens
  | (tokens, .bare read) => (bareValue? read.reverse).map fun j => .leaf j :: tokens
  | _ => none

theorem tokens?_eq (text : List (Option Char))
    : tokens? text = (text.foldlM step ([], .between)).bind Cut.close? := by
  unfold tokens?
  cases text.foldlM step ([], .between) with
  | none => rfl
  | some cut =>
      obtain ⟨tokens, place⟩ := cut
      cases place with
      | bare read => cases same : bareValue? read.reverse <;> simp [Cut.close?, same]
      | _ => rfl

/-- The text is cut into these tokens, the last of which may go on behind it. -/
def Reads (text : List Char) (read : List Token) : Prop :=
  ∀ before, ∃ cut, (text.map some).foldlM step (before, .between) = some cut
    ∧ cut.close? = some (read.reverse ++ before)

/-- The text is cut into these tokens, and its end is the end of the last one. -/
def Closes (text : List Char) (read : List Token) : Prop :=
  ∀ before,
    (text.map some).foldlM step (before, .between) = some (read.reverse ++ before, .between)

theorem Closes.reads {text : List Char} {read : List Token} (closes : Closes text read)
    : Reads text read :=
  fun before => ⟨_, closes before, rfl⟩

theorem reads_nil
    : Reads [] [] :=
  fun _ => ⟨_, rfl, rfl⟩

theorem Closes.append_reads {s t : List Char} {xs ys : List Token} (front : Closes s xs)
    (back : Reads t ys)
    : Reads (s ++ t) (xs ++ ys) := by
  intro before
  obtain ⟨cut, run, closed⟩ := back (xs.reverse ++ before)
  refine ⟨cut, ?_, by simpa using closed⟩
  rw [List.map_append, List.foldlM_append, front before]
  exact run

theorem Closes.append {s t : List Char} {xs ys : List Token} (front : Closes s xs)
    (back : Closes t ys)
    : Closes (s ++ t) (xs ++ ys) := by
  intro before
  rw [List.map_append, List.foldlM_append, front before, List.reverse_append, List.append_assoc]
  exact back _

/-- Behind tokens that end here or may go on, a bracket or a separator is a token of its own. -/
theorem Reads.punctuation {text : List Char} {read : List Token} (reads : Reads text read)
    {c : Char} {token : Token} (mark : punctuation? c = some token)
    : Closes (text ++ [c]) (read ++ [token]) := by
  have apart : isSpace c = false ∧ c ≠ '"' ∧ isBare c = false := by
    unfold punctuation? at mark
    split at mark
    all_goals first | exact ⟨by decide, by decide, by decide⟩ | cases mark
  obtain ⟨noSpace, noQuote, notBare⟩ := apart
  have between : ∀ tokens, stepBetween tokens c = some (token :: tokens, .between) := by
    intro tokens
    simp [stepBetween, noSpace, noQuote, notBare, mark]
  intro before
  obtain ⟨⟨tokens, place⟩, run, closed⟩ := reads before
  rw [List.map_append, List.foldlM_append, run, List.reverse_append]
  cases place with
  | between =>
      cases closed
      simp [step, stepCharacter, between]
  | bare text =>
      obtain ⟨j, value, same⟩ := Option.map_eq_some_iff.mp closed
      simp [step, stepCharacter, notBare, value, between, same]
  | _ => cases closed

/-- A word or a number that is read is one token. -/
theorem reads_bare {text : List Char} {j : Json} (bare : ∀ c ∈ text, isBare c = true)
    (value : bareValue? text = some j)
    : Reads text [.leaf j] := by
  have run : ∀ (s read : List Char) (tokens : List Token), (∀ c ∈ s, isBare c = true)
      → (s.map some).foldlM step (tokens, .bare read)
        = some (tokens, .bare (s.reverse ++ read)) := by
    intro s
    induction s with
    | nil => exact fun _ _ _ => rfl
    | cons c s ih =>
        intro read tokens bare
        obtain ⟨bareC, bare⟩ := List.forall_mem_cons.mp bare
        simp [step, stepCharacter, bareC, ih _ _ bare]
  intro before
  cases text with
  | nil => cases value
  | cons c s =>
      obtain ⟨bareC, bare⟩ := List.forall_mem_cons.mp bare
      have apart : isSpace c = false ∧ c ≠ '"' := by
        constructor
        · apply Bool.eq_false_iff.mpr
          intro space
          simp only [isSpace, Bool.or_eq_true, beq_iff_eq] at space
          rcases space with ((rfl | rfl) | rfl) | rfl <;> exact absurd bareC (by decide)
        · rintro rfl
          exact absurd bareC (by decide)
      refine ⟨(before, .bare (s.reverse ++ [c])), ?_, ?_⟩
      · simp [step, stepCharacter, stepBetween, apart, bareC, run s _ _ bare]
      · simp [Cut.close?, value]

theorem reads_word
    : Reads "null".toList [.leaf .null] ∧ Reads "true".toList [.leaf (.bool true)]
      ∧ Reads "false".toList [.leaf (.bool false)] :=
  ⟨reads_bare (by simp [isBare, Char.isAlphanum]) (if_pos rfl),
    reads_bare (by simp; decide) ((if_neg (by decide)).trans (if_pos rfl)),
    reads_bare (by simp; decide)
      ((if_neg (by decide)).trans ((if_neg (by decide)).trans (if_pos rfl)))⟩

theorem reads_number {text : String} (number : (literal? text.toList).isSome = true)
    : Reads text.toList [.leaf (.number text)] := by
  have noWord : ∀ word, literal? word = none → text.toList ≠ word := by
    rintro word none rfl
    simp [none] at number
  apply reads_bare (isBare_of_literal? number)
  obtain ⟨parts, read⟩ := Option.isSome_iff_exists.mp number
  rw [bareValue?, if_neg (noWord _ (by decide)), if_neg (noWord _ (by decide)),
    if_neg (noWord _ (by decide)), read, Option.map_some, String.ofList_toList]

/-- A character of a string is read back from what it is written as. -/
theorem run_escape (tokens : List Token) (read : List Char) (c : Char)
    : ((escape c).map some).foldlM step (tokens, .quoted ⟨read, none, true⟩)
      = some (tokens, .quoted ⟨c :: read, none, true⟩) := by
  unfold escape
  split
  case h_8 =>
    split
    next control =>
      obtain ⟨n, small, rfl⟩ : ∃ n < 0x20, c = .ofNat n :=
        ⟨c.toNat, control, (Char.ofNat_toNat c).symm⟩
      interval_cases n <;> rfl
    next => simp_all [step, stepCharacter, Quoted.push]
  all_goals rfl

/-- The characters of a string are read back, one after the other. -/
theorem run_escapes (tokens : List Token) (s read : List Char)
    : ((s.flatMap escape).map some).foldlM step (tokens, .quoted ⟨read, none, true⟩)
      = some (tokens, .quoted ⟨s.reverse ++ read, none, true⟩) := by
  induction s generalizing read with
  | nil => rfl
  | cons c s ih =>
      rw [List.flatMap_cons, List.map_append, List.foldlM_append, run_escape]
      simpa using ih (c :: read)

/-- A string in quotes is one token, which ends with the closing quote. -/
theorem closes_quote (s : String)
    : Closes (quote s) [.leaf (.string s)] := by
  intro before
  have opening : step (before, .between) (some '"') = some (before, .quoted ⟨[], none, true⟩) := rfl
  rw [quote, List.map_cons, List.foldlM_cons, opening, Option.bind_eq_bind, Option.bind_some,
    List.map_append, List.foldlM_append, run_escapes]
  simp [step, stepCharacter, Quoted.finish, String.ofList_toList]

theorem closes_opening {c : Char} {token : Token} (mark : punctuation? c = some token)
    : Closes [c] [token] :=
  reads_nil.punctuation mark

/-- Parts of an array or an object between its brackets are one run of tokens. -/
theorem closes_enclose {first last : Char} {opening closing : Token} {parts : List (List Char)}
    {read : List Token} (opens : punctuation? first = some opening)
    (ends : punctuation? last = some closing) (reads : Reads (parts.intersperse [',']).flatten read)
    : Closes (enclose first last [','] parts) (opening :: (read ++ [closing])) :=
  ((closes_opening opens).append_reads reads).punctuation ends

/-- A first part, a comma and further parts. -/
theorem reads_intersperse_cons {text : List Char} {read : List Token} {part : List Char}
    {parts : List (List Char)} {tokens : List Token} (first : Reads text read)
    (others : Reads ((part :: parts).intersperse [',']).flatten tokens)
    : Reads ((text :: part :: parts).intersperse [',']).flatten (read ++ .comma :: tokens) := by
  have whole := (first.punctuation (c := ',') rfl).append_reads others
  simpa using whole

mutual

/-- The compact text of a proper value is cut into the tokens of the value, by induction on the
value.
-/
theorem reads_compact : (j : Json) → j.Proper → Reads j.compact (tokens j)
  | .null, _ => reads_word.1
  | .bool true, _ => reads_word.2.1
  | .bool false, _ => reads_word.2.2
  | .number _, proper => reads_number proper.1
  | .string s, _ => (closes_quote s).reads
  | .array items, proper => (closes_enclose rfl rfl (reads_items items proper)).reads
  | .object members, proper => (closes_enclose rfl rfl (reads_members members proper)).reads

/-- The texts of items with commas between them are cut into the tokens of the items. -/
theorem reads_items
    : (items : List Json) → ProperItems items
      → Reads ((compactItems items).intersperse [',']).flatten (tokensOfItems items)
  | [], _ => reads_nil
  | [item], ⟨proper, _⟩ => by simpa [compactItems, tokensOfItems] using reads_compact item proper
  | item :: next :: rest, ⟨proper, others⟩ =>
      reads_intersperse_cons (reads_compact item proper) (reads_items (next :: rest) others)

/-- The texts of members with commas between them are cut into the tokens of the members. -/
theorem reads_members
    : (members : List (String × Json)) → ProperMembers members
      → Reads ((compactMembers members).intersperse [',']).flatten (tokensOfMembers members)
  | [], _ => reads_nil
  | [(name, item)], ⟨proper, _⟩ => by
      have member := ((closes_quote name).reads.punctuation (c := ':') rfl).append_reads
        (reads_compact item proper)
      simpa [compactMembers, tokensOfMembers] using member
  | (name, item) :: next :: rest, ⟨proper, others⟩ => by
      have member := ((closes_quote name).reads.punctuation (c := ':') rfl).append_reads
        (reads_compact item proper)
      have whole := reads_intersperse_cons member (reads_members (next :: rest) others)
      simpa [compactMembers, tokensOfMembers] using whole

end

-----------------------------------------------------------------------------------------
-- Putting tokens together
-----------------------------------------------------------------------------------------

/-- The tokens of a value do not start with the end of an array. -/
theorem exists_tokens_eq_cons (j : Json)
    : ∃ token rest, tokens j = token :: rest ∧ token ≠ .closeArray := by
  cases j <;> exact ⟨_, _, rfl, nofun⟩

/-- Where an array may end, its first item may start just as well. -/
theorem run_itemOrClose (frames : List Frame) (j : Json) (others : List Token)
    : (tokens j ++ others).foldlM stepToken (frames, .itemOrClose)
      = (tokens j ++ others).foldlM stepToken (.array [] :: frames, .value) := by
  obtain ⟨token, rest, same, notEnd⟩ := exists_tokens_eq_cons j
  have first : stepToken (frames, .itemOrClose) token
      = stepToken (.array [] :: frames, .value) token := by
    cases token <;> first | rfl | exact absurd rfl notEnd
  rw [same, List.cons_append, List.foldlM_cons, List.foldlM_cons, first]

/-- The tokens of an item are in front of those of the items. -/
theorem tokensOfItems_cons (item : Json) (rest : List Json)
    : ∃ others, tokensOfItems (item :: rest) = tokens item ++ others := by
  cases rest with
  | nil => exact ⟨[], (List.append_nil _).symm⟩
  | cons next rest => exact ⟨_, rfl⟩

mutual

/-- Where a value may start, its tokens are put together as the value, by induction on the value.
-/
theorem run_tokens
    : (j : Json) → (frames : List Frame)
      → (tokens j).foldlM stepToken (frames, .value) = some (frames, .after j)
  | .null, _ | .bool _, _ | .number _, _ | .string _, _ | .garbled, _ => rfl
  | .array items, frames => by
      have run := run_items items frames []
      cases items with
      | nil => rfl
      | cons item rest =>
          obtain ⟨others, same⟩ := tokensOfItems_cons item rest
          have run := run (List.cons_ne_nil item rest)
          rw [same, List.append_assoc, ← run_itemOrClose, ← List.append_assoc, ← same] at run
          exact run
  | .object members, frames => by
      have run := run_members members frames []
      cases members with
      | nil => rfl
      | cons member rest => cases rest <;> exact run (List.cons_ne_nil _ _)

/-- In an open array, the tokens of further items and of its end complete it. -/
theorem run_items
    : (items : List Json) → (frames : List Frame) → (read : List Json) → items ≠ []
      → (tokensOfItems items ++ [Token.closeArray]).foldlM stepToken (.array read :: frames, .value)
        = some (frames, .after (.array (read.reverse ++ items)))
  | [], _, _, filled => absurd rfl filled
  | [item], frames, read, _ => by
      simp [tokensOfItems, run_tokens item, stepToken]
  | item :: next :: rest, frames, read, _ => by
      have others := run_items (next :: rest) frames (item :: read) (List.cons_ne_nil _ _)
      rw [List.reverse_cons, List.append_assoc] at others
      rw [tokensOfItems, List.append_assoc, List.foldlM_append, run_tokens item]
      · exact others
      · exact nofun

/-- In an open object, the tokens of further members and of its end complete it. -/
theorem run_members
    : (members : List (String × Json)) → (frames : List Frame) → (read : List (String × Json))
      → members ≠ []
      → (tokensOfMembers members ++ [Token.closeObject]).foldlM stepToken
          (frames, .name (some read))
        = some (frames, .after (.object (read.reverse ++ members)))
  | [], _, _, filled => absurd rfl filled
  | [(name, item)], frames, read, _ => by
      have value := run_tokens item (.object (some read) name :: frames)
      simp [tokensOfMembers, stepToken, stepName, value, Members.close]
  | (name, item) :: next :: rest, frames, read, _ => by
      have value := run_tokens item (.object (some read) name :: frames)
      have others := run_members (next :: rest) frames ((name, item) :: read)
        (List.cons_ne_nil _ _)
      rw [List.reverse_cons, List.append_assoc] at others
      rw [← List.singleton_append (l := next :: rest), ← others]
      simp [tokensOfMembers, stepToken, stepName, value]

end

/-- A proper value is read back from its compact text. -/
theorem read?_compact {j : Json} (proper : j.Proper)
    : read? j.compact = some j := by
  obtain ⟨cut, run, closed⟩ := reads_compact j proper []
  rw [read?, readDecoded?, tokens?_eq, run, Option.bind_some, closed]
  simp [run_tokens j []]

end RangeTuner.Json
