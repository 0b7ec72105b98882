import RangeTuner.Proofs.Rewrite.Untouched
import RangeTuner.Proofs.Text.WordIdioms

/-! Definitions of types, as the templates for coordinates and for storage find them. Three idioms
read the same kind of text: an optional sign word, a base type, and a name with some ending. Main
statement: such an idiom reads a definition exactly where the tokens of the text start with one.
-/

namespace RangeTuner.Rewrite

open RangeTuner.Text

attribute [local instance] lawfulBEq_token

/-- The word that definitions start with. -/
def opener : List Char :=
  "typedef".toList

theorem opener_ne_nil : opener ≠ [] := by
  decide

theorem opener_letters : ∀ c ∈ opener, isWord c = true :=
  List.all_eq_true.mp (by decide)

/-- The sign words of whole-number types, and the base types of what is narrowed. -/
def signWords : List String :=
  ["unsigned", "signed"]

def baseWords : List String :=
  ["double", "float", "int", "short", "long"]

/-- The words and signs of a definition around its name. -/
def keywords : List String :=
  ["typedef", ";"] ++ signWords ++ baseWords

/-- Kinds of type definitions, told by the words of the type and the endings of the name. -/
structure TypeKind where
  signs : List String
  bases : List String
  finishes : List String
  signs_listed : signs.Sublist signWords
  bases_listed : bases.Sublist baseWords
  distinct : ∀ finish ∈ finishes, 2 ≤ finish.toList.length ∧ '_' ∉ finish.toList
    ∧ ∀ word ∈ keywords, endsWith finish word.toList = false

namespace TypeKind

def coordinates : TypeKind where
  signs := []
  bases := ["double"]
  finishes := ["latitude", "longitude"]
  signs_listed := by decide
  bases_listed := by decide
  distinct := by decide

def speeds : TypeKind where
  signs := []
  bases := ["double", "float"]
  finishes := ["speed"]
  signs_listed := by decide
  bases_listed := by decide
  distinct := by decide

def satellites : TypeKind where
  signs := ["unsigned", "signed"]
  bases := ["int", "short", "long"]
  finishes := ["satellites"]
  signs_listed := by decide
  bases_listed := by decide
  distinct := by decide

variable (kind : TypeKind)

def named (name : List Char) : Bool :=
  kind.finishes.any fun finish => endsWith finish name

-----------------------------------------------------------------------------------------
-- The idiom of a kind
-----------------------------------------------------------------------------------------

/-- What is read first for these words, in their order. -/
def firstOf (read : String → Scanner Unit) : List String → Scanner Unit
  | [] => failure
  | word :: words => read word <|> firstOf read words

def type : Scanner Unit := do
  Scanner.possibly (firstOf CompressStorage.signWord kind.signs)
  firstOf Scanner.literal kind.bases

def scan : Scanner (List Char) := do
  Scanner.literal "typedef"
  Scanner.blanks1
  kind.type
  Scanner.blanks1
  let name ← Scanner.word
  guard (kind.named name)
  Scanner.blanks
  Scanner.literal ";"
  return name

def idiom : Idiom (List Char) where
  opening := .wordStart
  scan := kind.scan

theorem firstOf_literal (words : List String)
    : firstOf Scanner.literal words = Scanner.oneOf words := by
  induction words with
  | nil => rfl
  | cons word words ih => rw [firstOf, ih, Scanner.oneOf]

theorem aliasTypedef_eq : NarrowCoordinates.aliasTypedef = coordinates.idiom := by
  have nothing : Scanner.possibly (failure : Scanner Unit) = pure () := rfl
  simp [NarrowCoordinates.aliasTypedef, idiom, scan, type, coordinates, firstOf, named, nothing]

theorem speedTypedef_eq : CompressStorage.speedTypedef = speeds.idiom := by
  have nothing : Scanner.possibly (failure : Scanner Unit) = pure () := rfl
  simp [CompressStorage.speedTypedef, CompressStorage.typedefName, idiom, scan, type, speeds,
    firstOf_literal, named, nothing, firstOf]

theorem satellitesTypedef_eq : CompressStorage.satellitesTypedef = satellites.idiom := by
  simp [CompressStorage.satellitesTypedef, CompressStorage.typedefName, idiom, scan, type,
    satellites, firstOf_literal, named, firstOf]

-----------------------------------------------------------------------------------------
-- Definitions among tokens
-----------------------------------------------------------------------------------------

/-- Tokens without the sign word that they may start with. -/
def behindSign : List (List Char) → List (List Char)
  | [] => []
  | token :: more => if token ∈ kind.signs.map String.toList then more else token :: more

/-- The name in the definition that tokens start with, and the tokens behind it. -/
def definition? : List (List Char) → Option (List Char × List (List Char))
  | [] => none
  | start :: more =>
      if start = opener then
        match kind.behindSign more with
        | base :: name :: close :: rest =>
            if base ∈ kind.bases.map String.toList ∧ kind.named name = true ∧ close = [';'] then
              some (name, rest)
            else none
        | _ => none
      else none

/-- The words of the types that definitions have. -/
def types : List (List String) :=
  kind.bases.map ([·]) ++ kind.signs.flatMap fun sign => kind.bases.map ([sign, ·])

/-- The tokens are a definition with this name. -/
structure Defines (name : List Char) (ts : List (List Char)) : Prop where
  named : kind.named name = true
  shape : ∃ type ∈ kind.types,
    ts = opener :: (type.map String.toList ++ [name, [';']])

variable {kind} {name : List Char} {ts rest : List (List Char)}

theorem apart (kind : TypeKind)
    : (kind.signs ++ kind.bases).Pairwise fun a b => clashes a.toList b.toList = true := by
  have all : (signWords ++ baseWords).Pairwise fun a b => clashes a.toList b.toList = true := by
    decide
  exact all.sublist (kind.signs_listed.append kind.bases_listed)

theorem letters_of_mem {word : String} (member : word ∈ signWords ++ baseWords)
    : word.toList ≠ [] ∧ ∀ c ∈ word.toList, isWord c = true := by
  have all : ∀ word ∈ signWords ++ baseWords,
      word.toList ≠ [] ∧ word.toList.all isWord = true := by
    decide
  exact ⟨(all word member).1, List.all_eq_true.mp (all word member).2⟩

theorem letters_of_sign {sign : String} (among : sign ∈ kind.signs)
    : sign.toList ≠ [] ∧ ∀ c ∈ sign.toList, isWord c = true :=
  letters_of_mem (List.mem_append_left _ (kind.signs_listed.subset among))

theorem letters_of_base {base : String} (within : base ∈ kind.bases)
    : base.toList ≠ [] ∧ ∀ c ∈ base.toList, isWord c = true :=
  letters_of_mem (List.mem_append_right _ (kind.bases_listed.subset within))

/-- A word that the kind narrows where it is the name of a definition. -/
structure Alias (kind : TypeKind) (name : List Char) : Prop where
  named : kind.named name = true
  letters : ∀ c ∈ name, isWord c = true

theorem two_le_length (named : kind.named name = true)
    : 2 ≤ name.length := by
  obtain ⟨finish, member, ends⟩ := List.any_eq_true.mp named
  have long := (List.isSuffixOf_iff_suffix.mp ends).length_le
  have short := (kind.distinct finish member).1
  omega

theorem Alias.ne_nil (known : kind.Alias name) : name ≠ [] := by
  rintro rfl
  have long := two_le_length known.named
  simp at long

theorem not_named_of_keyword {word : String} (member : word ∈ keywords)
    : kind.named word.toList = false := by
  refine List.any_eq_false.mpr ?_
  intro finish among
  simp [(kind.distinct finish among).2.2 word member]

theorem Alias.ne_keyword (known : kind.Alias name) {word : String} (member : word ∈ keywords)
    : name ≠ word.toList := by
  rintro rfl
  have named := known.named
  rw [not_named_of_keyword member] at named
  cases named

theorem suffix_append_cons_iff {finish start rest : List Char} {c : Char} (absent : c ∉ finish)
    : finish <:+ start ++ c :: rest ↔ finish <:+ rest := by
  constructor
  · intro ends
    have behind : c :: rest <:+ start ++ c :: rest := List.suffix_append start (c :: rest)
    rcases List.suffix_or_suffix_of_suffix ends behind with inner | outer
    · rcases List.suffix_cons_iff.mp inner with rfl | within
      · exact absurd List.mem_cons_self absent
      · exact within
    · exact absurd (outer.subset List.mem_cons_self) absent
  · intro ends
    exact ends.trans ((List.suffix_cons c rest).trans (List.suffix_append start (c :: rest)))

/-- A generic alias and its narrowed form end alike. -/
theorem named_optimizedAlias (name : List Char)
    : kind.named (optimizedAlias name) = kind.named name := by
  unfold optimizedAlias
  split
  · next rest found =>
      rw [after?_eq_some_iff.mp found, Bool.eq_iff_iff]
      have alike : ∀ start : List Char, ∀ finish ∈ kind.finishes,
          endsWith finish (start ++ '_' :: rest) = true ↔ endsWith finish rest = true := by
        intro start finish member
        simp only [endsWith, List.isSuffixOf_iff_suffix]
        exact suffix_append_cons_iff (kind.distinct finish member).2.1
      simp only [named, List.any_eq_true]
      refine exists_congr fun finish => and_congr_right fun member => ?_
      exact (alike "optimized".toList finish member).trans
        (alike "generic".toList finish member).symm
  · rfl

theorem Alias.optimized (known : kind.Alias name) : kind.Alias (optimizedAlias name) := by
  refine ⟨(named_optimizedAlias name).trans known.named, ?_⟩
  have letters := known.letters
  unfold optimizedAlias
  split
  · next rest found =>
      rw [after?_eq_some_iff.mp found] at letters
      intro c member
      rcases List.mem_append.mp member with first | last
      · exact List.all_eq_true.mp (by decide : "optimized_".toList.all isWord = true) c first
      · exact letters c (List.mem_append_right _ last)
  · exact letters

theorem mem_of_types {type : List String} (member : type ∈ kind.types)
    : ∀ word ∈ type, word ∈ kind.signs ++ kind.bases := by
  intro word among
  simp only [types, List.mem_append, List.mem_map, List.mem_flatMap] at member ⊢
  grind

theorem listed_of_types {type : List String} (member : type ∈ kind.types)
    : ∀ word ∈ type, word ∈ signWords ++ baseWords :=
  fun word among =>
    (kind.signs_listed.append kind.bases_listed).subset (mem_of_types member word among)

theorem base_not_sign {base : String} (member : base ∈ kind.bases)
    : base.toList ∉ kind.signs.map String.toList := by
  intro signed
  obtain ⟨sign, among, same⟩ := List.mem_map.mp signed
  have clash := (List.pairwise_append.mp (apart kind)).2.2 sign among base member
  rw [same] at clash
  have never : ∀ word : List Char, clashes word word = false := by
    intro word
    induction word with
    | nil => rfl
    | cons c word ih => simp [clashes, ih]
  rw [never] at clash
  cases clash

/-- Tokens with a base behind the sign word that they may start with start with a type. -/
theorem exists_type_of_behindSign {more : List (List Char)} {base : String}
    (within : base ∈ kind.bases) (shape : kind.behindSign more = base.toList :: rest)
    : ∃ type ∈ kind.types, more = type.map String.toList ++ rest := by
  cases more with
  | nil => cases shape
  | cons token more =>
      simp only [behindSign] at shape
      split at shape
      · next signed =>
          obtain ⟨sign, among, rfl⟩ := List.mem_map.mp signed
          exact ⟨[sign, base], by simp [types, among, within], by simp [shape]⟩
      · exact ⟨[base], by simp [types, within], by simp [shape]⟩

/-- Behind its sign word, if it has one, a type is a base. -/
theorem behindSign_type {type : List String} (member : type ∈ kind.types)
    (rest : List (List Char))
    : ∃ base ∈ kind.bases,
      kind.behindSign (type.map String.toList ++ rest) = base.toList :: rest := by
  simp only [types, List.mem_append, List.mem_map, List.mem_flatMap] at member
  rcases member with ⟨base, within, rfl⟩ | ⟨sign, among, base, within, rfl⟩
  · exact ⟨base, within, if_neg (base_not_sign within)⟩
  · exact ⟨base, within, if_pos (List.mem_map_of_mem among)⟩

theorem defines_of_definition? (found : kind.definition? ts = some (name, rest))
    : ∃ lead, kind.Defines name lead ∧ ts = lead ++ rest := by
  cases ts with
  | nil => cases found
  | cons start more =>
      simp only [definition?] at found
      split_ifs at found with started
      subst started
      split at found
      · next base other close last shape =>
          split_ifs at found with fits
          obtain ⟨listed, named, rfl⟩ := fits
          obtain ⟨rfl, rfl⟩ := Prod.mk.inj (Option.some.inj found)
          obtain ⟨word, within, rfl⟩ := List.mem_map.mp listed
          obtain ⟨type, member, rfl⟩ := exists_type_of_behindSign within shape
          exact ⟨_, ⟨named, type, member, rfl⟩, by simp⟩
      · cases found

theorem Defines.definition? {lead : List (List Char)} (defines : kind.Defines name lead)
    (rest : List (List Char))
    : kind.definition? (lead ++ rest) = some (name, rest) := by
  obtain ⟨named, type, member, rfl⟩ := defines
  obtain ⟨base, within, behind⟩ := behindSign_type member (name :: [';'] :: rest)
  have whole : opener :: (type.map String.toList ++ [name, [';']]) ++ rest
      = opener :: (type.map String.toList ++ (name :: [';'] :: rest)) := by
    simp
  simp only [whole, TypeKind.definition?, if_true, behind]
  exact if_pos ⟨List.mem_map_of_mem within, named, trivial⟩

-----------------------------------------------------------------------------------------
-- Definitions in a text
-----------------------------------------------------------------------------------------

section

variable {words : List String} {word : String} {read : String → Scanner Unit} {s tail : List Char}

theorem firstOf_eq_some (found : firstOf read words s = some ((), tail))
    : ∃ word ∈ words, read word s = some ((), tail) := by
  induction words with
  | nil => cases found
  | cons first words ih =>
      rcases Scanner.orElse_eq_some found with here | later
      · exact ⟨first, by simp, here⟩
      · obtain ⟨word, member, there⟩ := ih later
        exact ⟨word, by simp [member], there⟩

theorem firstOf_cons_of_none (nothing : read word s = none)
    : firstOf read (word :: words) s = firstOf read words s := by
  simp [firstOf, HOrElse.hOrElse, OrElse.orElse, Alternative.orElse, StateT.orElse, nothing]

theorem literal_of_clashes {first : String} (clash : clashes first.toList word.toList = true)
    (tail : List Char)
    : Scanner.literal first (word.toList ++ tail) = none := by
  simp [Scanner.literal, after?_of_clashes (clashes_append clash tail)]

/-- Where a word stands, what is read for the words before it is nothing. -/
theorem firstOf_of_mem (apart : words.Pairwise fun a b => clashes a.toList b.toList = true)
    (starts : ∀ first t, Scanner.literal first t = none → read first t = none)
    (member : word ∈ words) {t : List Char}
    (here : read word (word.toList ++ t) = some ((), tail))
    : firstOf read words (word.toList ++ t) = some ((), tail) := by
  induction words with
  | nil => cases member
  | cons first words ih =>
      rw [List.pairwise_cons] at apart
      rcases List.mem_cons.mp member with rfl | later
      · simp [firstOf, HOrElse.hOrElse, OrElse.orElse, Alternative.orElse, StateT.orElse, here]
      · rw [firstOf_cons_of_none (starts _ _ (literal_of_clashes (apart.1 word later) t))]
        exact ih apart.2 later

theorem firstOf_eq_none (starts : ∀ first t, Scanner.literal first t = none → read first t = none)
    (clash : ∀ first ∈ words, clashes first.toList word.toList = true) (t : List Char)
    : firstOf read words (word.toList ++ t) = none := by
  induction words with
  | nil => rfl
  | cons first words ih =>
      rw [List.forall_mem_cons] at clash
      rw [firstOf_cons_of_none (starts _ _ (literal_of_clashes clash.1 t))]
      exact ih clash.2

end

section

open Scanner

variable {sign base : String} {s tail : List Char}

theorem signWord_starts (first : String) (t : List Char) (nothing : literal first t = none)
    : CompressStorage.signWord first t = none :=
  bind_eq_none nothing _

/-- What is read of a type is its words, with blanks between them. -/
theorem type_eq_some
    (found : kind.type s = some ((), tail))
    : ∃ lexeme, s = lexeme ++ tail ∧ ∃ type ∈ kind.types, ∀ gap, gap ≠ []
        → (∀ c ∈ gap, isBlank c = true) → ∀ t, tokens (lexeme ++ (gap ++ t))
          = type.map String.toList ++ tokens t := by
  obtain ⟨_, middle, first, second⟩ := bind_eq_some_iff.mp found
  obtain ⟨base, within, read⟩ := firstOf_eq_some second
  obtain rfl := literal_eq_some_iff.mp read
  obtain ⟨filled, all⟩ := letters_of_base within
  rcases orElse_eq_some first with signed | plain
  · obtain ⟨sign, among, read⟩ := firstOf_eq_some signed
    obtain ⟨_, behind, started, ended⟩ := bind_eq_some_iff.mp read
    obtain rfl := literal_eq_some_iff.mp started
    obtain ⟨space, rfl, wide, blank⟩ := blanks1_eq_some ended
    obtain ⟨filled', all'⟩ := letters_of_sign among
    refine ⟨sign.toList ++ (space ++ base.toList), by simp, [sign, base],
      by simp [types, among, within], ?_⟩
    intro gap wide' blank' t
    simp only [List.append_assoc, tokens_word_gap filled' all' wide blank,
      tokens_word_gap filled all wide' blank']
    rfl
  · obtain rfl : s = base.toList ++ tail := by cases plain; rfl
    refine ⟨base.toList, rfl, [base], by simp [types, within], ?_⟩
    intro gap wide' blank' t
    simp only [tokens_word_gap filled all wide' blank']
    rfl

/-- A base is read at the start of a text whose first token it is. -/
theorem base_of_tokens {base : String} (within : base ∈ kind.bases)
    (visible : s.head?.any isBlank = false) {more : List (List Char)}
    (same : tokens s = base.toList :: more)
    : ∃ tail, s = base.toList ++ tail ∧ firstOf literal kind.bases s = some ((), tail)
      ∧ tail.head?.any isWord = false ∧ tokens tail = more := by
  obtain ⟨filled, all⟩ := letters_of_base within
  obtain ⟨tail, rfl, -, ended, behind⟩ := word_of_tokens visible (head?_word filled all) same
  refine ⟨tail, rfl, ?_, ended, behind⟩
  exact firstOf_of_mem (List.pairwise_append.mp (apart kind)).2.1 (fun _ _ => id) within
    (literal_eq_some_iff.mpr rfl)

/-- Where the tokens are a type and a name, the type is read. -/
theorem type_of_tokens (visible : s.head?.any isBlank = false) {type : List String}
    (member : type ∈ kind.types) {more : List (List Char)}
    (same : tokens s = type.map String.toList ++ more)
    : ∃ tail, kind.type s = some ((), tail) ∧ tail.head?.any isWord = false
      ∧ tokens tail = more := by
  have separate := List.pairwise_append.mp (apart kind)
  simp only [types, List.mem_append, List.mem_map, List.mem_flatMap] at member
  rcases member with ⟨base, within, rfl⟩ | ⟨sign, among, base, within, rfl⟩
  · obtain ⟨tail, rfl, read, ended, behind⟩ := base_of_tokens within visible same
    refine ⟨tail, bind_eq_some_iff.mpr ⟨(), _, ?_, read⟩, ended, behind⟩
    have unsigned : firstOf CompressStorage.signWord kind.signs (base.toList ++ tail) = none :=
      firstOf_eq_none signWord_starts (fun sign among => separate.2.2 sign among base within) tail
    simp only [possibly, HOrElse.hOrElse, OrElse.orElse, Alternative.orElse, StateT.orElse,
      unsigned]
    rfl
  · obtain ⟨filled, all⟩ := letters_of_sign among
    obtain ⟨filled', all'⟩ := letters_of_base within
    obtain ⟨behind, rfl, -, ended, same⟩ := word_of_tokens visible (head?_word filled all) same
    obtain ⟨gap, rest, rfl, spaced, visible, same⟩ :=
      blanks1_of_tokens ended (head?_word filled' all') same
    obtain ⟨tail, rfl, read, ended, same⟩ := base_of_tokens within visible same
    refine ⟨tail, bind_eq_some_iff.mpr ⟨(), _, ?_, read⟩, ended, same⟩
    have signed : CompressStorage.signWord sign (sign.toList ++ (gap ++ (base.toList ++ tail)))
        = some ((), base.toList ++ tail) :=
      bind_eq_some_iff.mpr ⟨(), _, literal_eq_some_iff.mpr rfl, spaced⟩
    have read := firstOf_of_mem separate.1 signWord_starts among signed
    simp only [possibly, HOrElse.hOrElse, OrElse.orElse, Alternative.orElse, StateT.orElse, read]
    rfl

theorem scan_eq_some {name rest : List Char} (found : kind.scan s = some (name, rest))
    : ∃ lexeme, s = lexeme ++ rest ∧ lexeme.head? = some 't' ∧ lexeme.getLast? = some ';'
      ∧ kind.Alias name ∧ kind.Defines name (tokens lexeme) := by
  obtain ⟨_, s₁, started, found₁⟩ := bind_eq_some_iff.mp found
  obtain rfl := literal_eq_some_iff.mp started
  obtain ⟨_, s₂, spaced, found₂⟩ := bind_eq_some_iff.mp found₁
  obtain ⟨space, rfl, wide, blank⟩ := blanks1_eq_some spaced
  obtain ⟨_, s₃, typed, found₃⟩ := bind_eq_some_iff.mp found₂
  obtain ⟨words, rfl, type, member, apart⟩ := type_eq_some typed
  obtain ⟨_, s₄, spaced', found₄⟩ := bind_eq_some_iff.mp found₃
  obtain ⟨gap, rfl, wide', blank'⟩ := blanks1_eq_some spaced'
  obtain ⟨word, s₅, read, found₅⟩ := bind_eq_some_iff.mp found₄
  obtain ⟨rfl, filled, all, ended⟩ := word_eq_some_iff.mp read
  obtain ⟨_, s₆, checked, found₆⟩ := bind_eq_some_iff.mp found₅
  obtain ⟨named, rfl⟩ := guard_eq_some_iff.mp checked
  obtain ⟨_, s₇, spaced'', found₇⟩ := bind_eq_some_iff.mp found₆
  obtain ⟨last, rfl, blank''⟩ := blanks_eq_some spaced''
  obtain ⟨_, s₈, closed, found₈⟩ := bind_eq_some_iff.mp found₇
  obtain rfl := literal_eq_some_iff.mp closed
  obtain ⟨rfl, rfl⟩ := Prod.mk.inj (Option.some.inj found₈)
  refine ⟨opener ++ (space ++ (words ++ (gap ++ (word ++ (last ++ [';']))))),
    by simp only [List.append_assoc]; rfl,
    rfl, by simp only [← List.append_assoc, List.getLast?_concat], ⟨named, all⟩, named, type,
    member, ?_⟩
  have edge : (last ++ [';']).head?.any isWord = false :=
    head?_blanks_append blank'' (by decide : isWord ';' = false)
  rw [tokens_word_gap opener_ne_nil opener_letters wide blank, apart gap wide' blank',
    tokens_word_append filled all edge, tokens_blanks_append blank'']
  rfl

theorem alias_of_scan {name rest : List Char} (found : kind.scan s = some (name, rest))
    : kind.Alias name := by
  obtain ⟨-, -, -, -, known, -⟩ := scan_eq_some found
  exact known

theorem defines_of_scan {name lexeme rest : List Char}
    (found : kind.scan (lexeme ++ rest) = some (name, rest))
    : kind.Defines name (tokens lexeme) := by
  obtain ⟨read, whole, -, -, -, defines⟩ := scan_eq_some found
  obtain rfl := List.append_cancel_right whole
  exact defines

/-- Where the tokens of a text are a definition, it is read. -/
theorem scan_of_tokens (visible : s.head?.any isBlank = false) {name : List Char}
    {lead more : List (List Char)} (defines : kind.Defines name lead)
    (same : tokens s = lead ++ more)
    : ∃ rest, kind.scan s = some (name, rest) ∧ tokens rest = more := by
  obtain ⟨named, type, member, rfl⟩ := defines
  obtain ⟨word, types, rfl⟩ : ∃ word types, type = word :: types := by
    cases type with
    | nil => simp [TypeKind.types] at member
    | cons word types => exact ⟨word, types, rfl⟩
  have lettered : word.toList.head?.any isWord = true := by
    obtain ⟨filled, all⟩ := letters_of_mem (listed_of_types member word (by simp))
    exact head?_word filled all
  obtain ⟨s₁, rfl, -, ended, same⟩ := word_of_tokens visible (by decide) same
  obtain ⟨gap, s₂, rfl, spaced, visible, same⟩ := blanks1_of_tokens ended lettered same
  obtain ⟨s₃, typed, ended, same⟩ := type_of_tokens visible member
    (same.trans (List.append_assoc ((word :: types).map String.toList) [name, [';']] more))
  have starts : name.head?.any isWord = true := by
    obtain ⟨-, _, -, -, first, -⟩ := exists_of_tokens_eq_cons same
    exact first.starts (two_le_length named)
  obtain ⟨gap', s₄, rfl, spaced', visible, same⟩ := blanks1_of_tokens ended starts same
  obtain ⟨s₅, rfl, read, ended, same⟩ := word_of_tokens visible starts same
  obtain ⟨gap'', s₆, rfl, spaced'', visible, same⟩ := blanks_of_tokens same
  have closes : tokens s₆ = ";".toList :: more := same
  obtain ⟨rest, rfl, closed, -, behind⟩ := literal_of_tokens visible closes
  refine ⟨rest, ?_, behind⟩
  refine bind_eq_some_iff.mpr ⟨(), _, literal_eq_some_iff.mpr rfl, ?_⟩
  refine bind_eq_some_iff.mpr ⟨(), _, spaced, ?_⟩
  refine bind_eq_some_iff.mpr ⟨(), _, typed, ?_⟩
  refine bind_eq_some_iff.mpr ⟨(), _, spaced', ?_⟩
  refine bind_eq_some_iff.mpr ⟨name, _, read, ?_⟩
  refine bind_eq_some_iff.mpr ⟨(), _, guard_eq_some_iff.mpr ⟨named, rfl⟩, ?_⟩
  refine bind_eq_some_iff.mpr ⟨(), _, spaced'', ?_⟩
  exact bind_eq_some_iff.mpr ⟨(), _, closed, rfl⟩

theorem wordBound (kind : TypeKind) : kind.idiom.WordBound := by
  refine ⟨rfl, ?_⟩
  intro s name rest found
  obtain ⟨lexeme, rfl, first, last, -⟩ := scan_eq_some found
  exact ⟨lexeme, rfl, by rw [first]; decide, .inl (by rw [last]; decide)⟩

end

end TypeKind
end RangeTuner.Rewrite
