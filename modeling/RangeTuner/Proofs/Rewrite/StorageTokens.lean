import RangeTuner.Proofs.Rewrite.CoordinateTokens

/-! What compressing storage does to the tokens of a text. Three passes follow each other: two that
narrow definitions, rename what they define and put a note behind each, and one between them that
repairs formats. Main statement: token by token, the rewrite of a text is the text, with narrowed
definitions, repaired directives and renamed words, and with a note where each definition ends.
-/

namespace RangeTuner.Rewrite

open RangeTuner.Text RangeTuner.Spec TypeKind

namespace CompressStorage

variable {kind : TypeKind} {name : List Char} {names others : List (List Char)}
  {t u : SpacedToken} {ts us vs front : List SpacedToken}

-----------------------------------------------------------------------------------------
-- Tokens of a text and of its rewrite
-----------------------------------------------------------------------------------------

/-- The tokens of a narrowed definition and of the note behind it, without its last word. -/
def notedTokens (name : List Char) : List (List Char) :=
  opener :: "unsigned".toList :: "char".toList :: name
    :: [[';'], ['/'], ['/'], "rangeopt".toList, [':'], "0".toList, ['-'], "255".toList]

/-- The last word of the note. -/
def noteWord : List Char :=
  "sufficient".toList

/-- The tokens of a directive for a number with decimals, behind its percent sign, and the letters
that its last word goes on with.
-/
structure IsDirective (tokens : List (List Char)) (rest : List Char) : Prop where
  shape : ∃ signs digits letter, tokens = signs ++ [digits ++ letter :: rest]
    ∧ (∀ token ∈ signs, ∀ c ∈ token, isDirectiveSign c = true)
    ∧ (∀ c ∈ digits, isDirectiveSign c = true) ∧ letter ∈ ['f', 'F']

/-- How the tokens of a text and of its rewrite stand to each other, where certain names are
renamed. Each token has its place: in a narrowed definition, in a repaired directive, or by itself
and then renamed if it is one of the names. A word that stands directly behind a narrowed
definition is taken into the note.
-/
inductive Follows (names : List (List Char)) : List SpacedToken → List SpacedToken → Prop
  | nil : Follows names [] []
  | kept {t : SpacedToken} {gap : List Char} {ts us : List SpacedToken}
      (same : t.token = [';'] → gap = t.gap) (behind : Follows names ts us)
    : Follows names (t :: ts) (⟨narrowedToken names t.token, gap⟩ :: us)
  | narrowed {kind : TypeKind} {name gap gap' : List Char} {lead new ts us : List SpacedToken}
      (defines : kind.Defines name (lead.map SpacedToken.token ++ [[';']]))
      (captured : name ∈ names)
      (noted : new.map SpacedToken.token = notedTokens (optimizedAlias name))
      (apart : gap ≠ [] ∨ startsWord ts = false) (behind : Follows names ts us)
    : Follows names (lead ++ ⟨[';'], gap⟩ :: ts) (new ++ ⟨noteWord, gap'⟩ :: us)
  | taken {kind : TypeKind} {name more gap' : List Char} {u : SpacedToken}
      {lead new ts us : List SpacedToken}
      (defines : kind.Defines name (lead.map SpacedToken.token ++ [[';']]))
      (captured : name ∈ names)
      (noted : new.map SpacedToken.token = notedTokens (optimizedAlias name))
      (word : u.token.head?.any isWord = true) (behind : Follows names ts (u :: us))
    : Follows names (lead ++ ⟨[';'], []⟩ :: ts) (new ++ ⟨noteWord ++ more, gap'⟩ :: us)
  | directive {rest gap gap' last : List Char} {signs ts us : List SpacedToken}
      (decimal : IsDirective (signs.map SpacedToken.token) rest) (behind : Follows names ts us)
    : Follows names (⟨['%'], gap⟩ :: (signs ++ ts)) (⟨['%'], gap'⟩ :: ⟨'d' :: rest, last⟩ :: us)

-----------------------------------------------------------------------------------------
-- Renamed tokens
-----------------------------------------------------------------------------------------

/-- A token that does not start like a generic name stays. -/
theorem narrowedToken_of_head {token : List Char} (other : token.head? ≠ some 'g')
    : narrowedToken names token = token := by
  have plain : after? "generic_".toList token = none := by
    refine Option.eq_none_iff_forall_ne_some.mpr fun rest found => ?_
    rw [after?_eq_some_iff.mp found] at other
    exact other rfl
  unfold narrowedToken
  split
  · exact optimizedAlias_of_not_generic plain
  · rfl

/-- What does not start like a narrowed name has been renamed to by no other token. -/
theorem eq_of_narrowedToken_eq {token new : List Char} (other : new.head? ≠ some 'o')
    (same : narrowedToken names token = new)
    : token = new := by
  unfold narrowedToken at same
  split at same
  · unfold optimizedAlias at same
    split at same
    · rw [← same] at other
      exact absurd rfl other
    · exact same
  · exact same

theorem head?_narrowedToken_isWord (names : List (List Char)) (token : List Char)
    : (narrowedToken names token).head?.any isWord = token.head?.any isWord := by
  unfold narrowedToken optimizedAlias
  split
  · split
    · next rest found =>
        rw [after?_eq_some_iff.mp found]
        exact (by decide : isWord 'o' = isWord 'g')
    · rfl
  · rfl

/-- Where no narrowed form of one list is in another, renaming by the first and then by the other
is renaming by both.
-/
theorem narrowedToken_narrowedToken (apart : ∀ name ∈ names, optimizedAlias name ∉ others)
    (token : List Char)
    : narrowedToken others (narrowedToken names token) = narrowedToken (names ++ others) token := by
  by_cases captured : token ∈ names
  · simp [narrowedToken, captured, apart token captured]
  · simp [narrowedToken, captured]

theorem IsDirective.head_of_mem {tokens : List (List Char)} {rest token : List Char}
    (decimal : IsDirective tokens rest) (member : token ∈ tokens)
    : ∀ c ∈ token.head?, isDirectiveSign c = true ∨ c ∈ ['f', 'F'] := by
  obtain ⟨signs, digits, letter, rfl, plain, digital, last⟩ := decimal.shape
  intro c first
  rcases List.mem_append.mp member with early | late
  · exact .inl (plain token early c (List.mem_of_head? first))
  · rw [List.mem_singleton.mp late] at first
    cases digits with
    | nil =>
        obtain rfl := Option.some.inj first
        exact .inr last
    | cons d digits =>
        obtain rfl := Option.some.inj first
        exact .inl (digital d (by simp))

/-- No token of a directive starts with another letter. -/
theorem IsDirective.head_ne {tokens : List (List Char)} {rest token : List Char}
    (decimal : IsDirective tokens rest) (member : token ∈ tokens) {c : Char}
    (plain : (isDirectiveSign c || ['f', 'F'].contains c) = false)
    : token.head? ≠ some c := by
  intro first
  rw [Bool.or_eq_false_iff] at plain
  rcases decimal.head_of_mem member c first with sign | letter
  · rw [plain.1] at sign
    cases sign
  · rw [List.contains_iff_mem.mpr letter] at plain
    cases plain.2

/-- So tokens that start with a directive start with no other letter. -/
theorem IsDirective.first_ne {signs more : List SpacedToken} {rest : List Char}
    (decimal : IsDirective (signs.map SpacedToken.token) rest) (shape : signs ++ more = t :: ts)
    {c : Char} (plain : (isDirectiveSign c || ['f', 'F'].contains c) = false)
    : t.token.head? ≠ some c := by
  obtain ⟨start, digits, letter, words, -⟩ := decimal.shape
  cases signs with
  | nil => simp at words
  | cons u signs =>
      obtain rfl := (List.cons.inj shape).1
      exact decimal.head_ne List.mem_cons_self plain

-----------------------------------------------------------------------------------------
-- What a derivation starts with
-----------------------------------------------------------------------------------------

theorem starts_of_defines {lead : List SpacedToken}
    (defines : kind.Defines name (lead.map SpacedToken.token ++ [[';']])) (gap : List Char)
    (ts : List SpacedToken)
    : kind.definition.Starts ((lead ++ ⟨[';'], gap⟩ :: ts).map SpacedToken.token) := by
  obtain ⟨more, same, follows⟩ := defines.exists_eq_cons
  refine ⟨more, follows, ts.map SpacedToken.token, ?_⟩
  change (opener :: more) ++ _ = _
  rw [← same]
  simp

/-- A narrowed definition starts like none of a kind. -/
theorem not_starts_noted {tokens : List (List Char)} (name : List Char)
    : ¬ kind.definition.Starts (notedTokens name ++ tokens) :=
  not_starts_byte

theorem not_starts_of_ne {token : List Char} {tokens : List (List Char)} (other : token ≠ opener)
    : ¬ kind.definition.Starts (token :: tokens) := by
  rintro ⟨more, -, start⟩
  exact other (List.cons_prefix_cons.mp start).1.symm

/-- A token that starts neither a definition nor a directive is kept. -/
theorem Follows.of_source_cons (follows : Follows names (t :: ts) vs)
    (undefined : ∀ kind : TypeKind, ¬ kind.definition.Starts ((t :: ts).map SpacedToken.token))
    (unformatted : t.token = ['%'] → ∀ signs more rest, ts = signs ++ more
      → ¬ IsDirective (signs.map SpacedToken.token) rest)
    : ∃ gap vs', vs = ⟨narrowedToken names t.token, gap⟩ :: vs' ∧ (t.token = [';'] → gap = t.gap)
      ∧ Follows names ts vs' := by
  generalize source : t :: ts = whole at follows undefined
  cases follows with
  | nil => cases source
  | kept same behind =>
      obtain ⟨rfl, rfl⟩ := List.cons.inj source
      exact ⟨_, _, rfl, same, behind⟩
  | narrowed defines captured noted apart behind =>
      exact absurd (starts_of_defines defines _ _) (undefined _)
  | taken defines captured noted word behind =>
      exact absurd (starts_of_defines defines _ _) (undefined _)
  | directive decimal behind =>
      obtain ⟨rfl, rfl⟩ := List.cons.inj source
      exact absurd decimal (unformatted rfl _ _ _ rfl)

/-- A token of the rewrite that starts neither a narrowed definition nor a repaired directive is one
of the text.
-/
theorem Follows.of_target_cons (follows : Follows names ts (u :: us))
    (unnoted : ∀ name more, (u :: us).map SpacedToken.token ≠ notedTokens name ++ more)
    (unformatted : u.token = ['%'] → ∀ rest last more, us ≠ ⟨'d' :: rest, last⟩ :: more)
    : ∃ t ts', ts = t :: ts' ∧ u.token = narrowedToken names t.token
      ∧ (t.token = [';'] → u.gap = t.gap) ∧ Follows names ts' us := by
  generalize target : u :: us = whole at follows unnoted
  cases follows with
  | nil => cases target
  | kept same behind =>
      obtain ⟨rfl, rfl⟩ := List.cons.inj target
      exact ⟨_, _, rfl, rfl, same, behind⟩
  | narrowed defines captured noted apart behind =>
      exact absurd (by rw [List.map_append, noted]) (unnoted _ _)
  | taken defines captured noted word behind =>
      exact absurd (by rw [List.map_append, noted]) (unnoted _ _)
  | directive decimal behind =>
      obtain ⟨rfl, rfl⟩ := List.cons.inj target
      exact absurd rfl (unformatted rfl _ _ _)

theorem Follows.of_source_nil (follows : Follows names [] vs) : vs = [] := by
  generalize source : [] = whole at follows
  cases follows with
  | nil => rfl
  | kept | directive => cases source
  | narrowed | taken =>
      have empty := congrArg List.length source
      simp at empty

/-- Tokens that start nothing are kept one by one. -/
theorem Follows.of_source_append (follows : Follows names (front ++ ts) vs)
    (plain : ∀ t ∈ front, t.token ≠ opener ∧ t.token ≠ ['%'])
    : ∃ front' vs', vs = front' ++ vs' ∧ Follows names ts vs'
      ∧ front'.map SpacedToken.token = front.map fun t => narrowedToken names t.token := by
  induction front generalizing vs with
  | nil => exact ⟨[], vs, rfl, follows, rfl⟩
  | cons t front ih =>
      rw [List.forall_mem_cons] at plain
      obtain ⟨gap, vs', rfl, -, behind⟩ := follows.of_source_cons
        (fun kind => not_starts_of_ne plain.1.1) (fun percent => absurd percent plain.1.2)
      obtain ⟨front', vs', rfl, behind, same⟩ := ih behind plain.2
      exact ⟨_ :: front', vs', rfl, behind, by simp [same]⟩

theorem Follows.of_target_append (follows : Follows names ts (front ++ us))
    (plain : ∀ u ∈ front, u.token ≠ opener ∧ u.token ≠ ['%'])
    : ∃ front' ts', ts = front' ++ ts' ∧ Follows names ts' us
      ∧ front.map SpacedToken.token = front'.map fun t => narrowedToken names t.token := by
  induction front generalizing ts with
  | nil => exact ⟨[], ts, rfl, follows, rfl⟩
  | cons u front ih =>
      rw [List.forall_mem_cons] at plain
      obtain ⟨t, ts', rfl, same, -, behind⟩ := follows.of_target_cons
        (fun name more begins => plain.1.1 (List.cons.inj begins).1)
        (fun percent => absurd percent plain.1.2)
      obtain ⟨front', ts', rfl, behind, same'⟩ := ih behind plain.2
      exact ⟨t :: front', ts', rfl, behind, by simp [same, same']⟩

theorem startsWord_of_map {tokens : List (List Char)} {word : List Char}
    (same : ts.map SpacedToken.token = word :: tokens) (us : List SpacedToken)
    : startsWord (ts ++ us) = word.head?.any isWord := by
  obtain ⟨t, ts', rfl, rfl, -⟩ := List.map_eq_cons_iff.mp same
  rfl

/-- Both sides start with a word or neither does. -/
theorem Follows.startsWord_eq (follows : Follows names ts us) : startsWord us = startsWord ts := by
  have definition : ∀ {kind : TypeKind} {name gap gap' word : List Char}
      {lead new ts us : List SpacedToken},
      kind.Defines name (lead.map SpacedToken.token ++ [[';']])
      → new.map SpacedToken.token = notedTokens (optimizedAlias name)
      → startsWord (new ++ ⟨word, gap'⟩ :: us) = startsWord (lead ++ ⟨[';'], gap⟩ :: ts) := by
    intro kind name gap gap' word lead new ts us defines noted
    obtain ⟨type, same, -⟩ := defines.exists_eq_opener
    have first : lead.map SpacedToken.token = opener :: (type ++ [name]) :=
      List.append_cancel_right (by simpa using same)
    rw [startsWord_of_map noted, startsWord_of_map first]
  cases follows with
  | nil => rfl
  | kept same behind => exact head?_narrowedToken_isWord _ _
  | narrowed defines captured noted apart behind => exact definition defines noted
  | taken defines captured noted word behind => exact definition defines noted
  | directive decimal behind => rfl

-----------------------------------------------------------------------------------------
-- One pass after another
-----------------------------------------------------------------------------------------

theorem eq_map_token {front front' : List SpacedToken}
    (same : front.map SpacedToken.token = front'.map fun t => narrowedToken names t.token)
    (only : ∀ u ∈ front, ∀ token, narrowedToken names token = u.token → token = u.token)
    : front'.map SpacedToken.token = front.map SpacedToken.token := by
  induction front generalizing front' with
  | nil => rw [List.map_eq_nil_iff.mp same.symm]
  | cons u front ih =>
      obtain ⟨t, behind, rfl, first, rest⟩ := List.map_eq_cons_iff.mp same.symm
      rw [List.forall_mem_cons] at only
      rw [List.map_cons, List.map_cons, only.1 t.token first, ih rest.symm only.2]

/-- The words of a definition are neither openers, behind the first, nor percent signs. -/
theorem plain_of_defines {lead : List SpacedToken}
    (defines : kind.Defines name (lead.map SpacedToken.token ++ [[';']]))
    : ∃ first more, lead = first :: more ∧ first.token = opener
      ∧ (∀ t ∈ more, t.token ≠ opener ∧ t.token ≠ ['%'])
      ∧ ∀ t ∈ lead, t.token.head? ≠ some 'o' ∨ t.token = name := by
  obtain ⟨named, type, member, same⟩ := defines
  have words : lead.map SpacedToken.token = opener :: (type.map String.toList ++ [name]) :=
    List.append_cancel_right (by simpa using same)
  obtain ⟨first, more, rfl, started, behind⟩ := List.map_eq_cons_iff.mp words
  have listed : ∀ word ∈ signWords ++ baseWords, word.toList ≠ opener ∧ word.toList ≠ ['%']
      ∧ word.toList.head? ≠ some 'o' := by
    decide
  have inside : ∀ t ∈ more, t.token ∈ type.map String.toList ∨ t.token = name := by
    intro t among
    have token : t.token ∈ type.map String.toList ++ [name] :=
      behind ▸ List.mem_map_of_mem among
    simpa only [List.mem_append, List.mem_singleton] using token
  refine ⟨first, more, rfl, started, fun t among => ?_, fun t among => ?_⟩
  · rcases inside t among with inType | rfl
    · obtain ⟨word, within, equal⟩ := List.mem_map.mp inType
      have plain := listed word (listed_of_types member word within)
      exact equal ▸ ⟨plain.1, plain.2.1⟩
    · have unopened : kind.named opener = false :=
        not_named_of_keyword (by decide : "typedef" ∈ keywords)
      have long := two_le_length named
      refine ⟨fun opens => ?_, fun percent => ?_⟩
      · rw [opens] at named
        exact absurd (named.symm.trans unopened) (by decide)
      · rw [percent] at long
        exact absurd long (by decide)
  · rcases List.mem_cons.mp among with rfl | later
    · exact .inl (by rw [started]; decide)
    · rcases inside t later with inType | named
      · obtain ⟨word, within, equal⟩ := List.mem_map.mp inType
        exact .inl (equal ▸ (listed word (listed_of_types member word within)).2.2)
      · exact .inr named

/-- A definition in the rewrite whose name no other one was renamed to stands in the text. -/
theorem Follows.of_definition {lead : List SpacedToken} {gap : List Char}
    (follows : Follows names ts (lead ++ ⟨[';'], gap⟩ :: us))
    (defines : kind.Defines name (lead.map SpacedToken.token ++ [[';']]))
    (unmade : ∀ alias' ∈ names, optimizedAlias alias' ≠ name)
    : ∃ lead' ts', ts = lead' ++ ⟨[';'], gap⟩ :: ts' ∧ Follows names ts' us
      ∧ lead'.map SpacedToken.token = lead.map SpacedToken.token := by
  have starts := starts_of_defines defines gap us
  obtain ⟨first, more, rfl, opens, plain, heads⟩ := plain_of_defines defines
  obtain ⟨t, ts₁, rfl, same, -, behind⟩ := follows.of_target_cons
    (fun other rest begins => not_starts_noted other (begins ▸ starts))
    (fun percent => absurd (opens.symm.trans percent) (by decide))
  obtain ⟨more', ts₂, rfl, behind, same'⟩ := behind.of_target_append plain
  obtain ⟨close, ts', rfl, closed, close_gap, further⟩ := behind.of_target_cons
    (fun other rest begins => (by decide : [';'] ≠ opener) (List.cons.inj begins).1)
    (fun percent => absurd percent (by decide : [';'] ≠ ['%']))
  have closes : close.token = [';'] := eq_of_narrowedToken_eq (by decide) closed.symm
  have only : ∀ u ∈ first :: more, ∀ token, narrowedToken names token = u.token
      → token = u.token := by
    intro u among token renamed
    rcases heads u among with other | named
    · exact eq_of_narrowedToken_eq other renamed
    · unfold narrowedToken at renamed
      split at renamed
      · next captured => exact absurd (renamed.trans named) (unmade token captured)
      · exact renamed
  obtain rfl : close = ⟨[';'], gap⟩ := by
    rw [show gap = close.gap from close_gap closes, ← closes]
  have words : (first :: more).map SpacedToken.token
      = (t :: more').map fun t => narrowedToken names t.token := by
    rw [List.map_cons, List.map_cons, same, same']
  exact ⟨t :: more', ts', rfl, further, eq_map_token words only⟩

/-- A directive in the rewrite stands in the text. -/
theorem Follows.of_directive {signs : List SpacedToken} {rest gap : List Char}
    (follows : Follows names ts (⟨['%'], gap⟩ :: (signs ++ us)))
    (decimal : IsDirective (signs.map SpacedToken.token) rest)
    : ∃ gap' signs' ts', ts = ⟨['%'], gap'⟩ :: (signs' ++ ts') ∧ Follows names ts' us
      ∧ signs'.map SpacedToken.token = signs.map SpacedToken.token := by
  have heads : ∀ u ∈ signs, ∀ c, (isDirectiveSign c || ['f', 'F'].contains c) = false
      → u.token.head? ≠ some c :=
    fun u among c other => decimal.head_ne (List.mem_map_of_mem among) other
  obtain ⟨t, ts₁, rfl, same, -, behind⟩ := follows.of_target_cons
    (fun other rest begins => (by decide : ['%'] ≠ opener) (List.cons.inj begins).1)
    (fun _ _ _ _ shape => decimal.first_ne shape (c := 'd') rfl rfl)
  have percent : t.token = ['%'] := eq_of_narrowedToken_eq (by decide) same.symm
  obtain ⟨signs', ts', rfl, behind, same'⟩ := behind.of_target_append fun u among => by
    refine ⟨fun opens => heads u among 't' rfl (by rw [opens]; rfl), fun percent => ?_⟩
    exact heads u among '%' rfl (by rw [percent]; rfl)
  refine ⟨t.gap, signs', ts', by rw [← percent], behind, eq_map_token same' ?_⟩
  exact fun u among token renamed => eq_of_narrowedToken_eq (heads u among 'o' rfl) renamed

/-- No name stands in a narrowed definition but in its narrowed form. -/
theorem narrowedToken_noted (names : List (List Char)) (name : List Char)
    : ∀ token ∈ notedTokens (optimizedAlias name), narrowedToken names token = token := by
  have others : ∀ token ∈ notedTokens opener, token.head? ≠ some 'g' := by decide
  have fixed : ∀ token ∈ notedTokens opener, narrowedToken names token = token :=
    fun token member => narrowedToken_of_head (others token member)
  simp only [notedTokens, List.forall_mem_cons] at fixed ⊢
  exact ⟨fixed.1, fixed.2.1, fixed.2.2.1, narrowedToken_optimizedAlias names name,
    fixed.2.2.2.2⟩

/-- Behind its opener a narrowed definition has neither another one nor a percent sign. -/
theorem plain_of_noted (named : kind.named name = true)
    : ∀ token ∈ (notedTokens (optimizedAlias name)).tail, token ≠ opener ∧ token ≠ ['%'] := by
  have others : ∀ token ∈ (notedTokens []).tail, token ≠ opener ∧ token ≠ ['%'] := by decide
  have new : kind.named (optimizedAlias name) = true := (named_optimizedAlias name).trans named
  have unopened : kind.named opener = false :=
    not_named_of_keyword (by decide : "typedef" ∈ keywords)
  have long := two_le_length new
  simp only [notedTokens, List.tail_cons, List.forall_mem_cons] at others ⊢
  refine ⟨others.1, others.2.1, ⟨fun opens => ?_, fun percent => ?_⟩, others.2.2.2⟩
  · rw [opens] at new
    exact absurd (new.symm.trans unopened) (by decide)
  · rw [percent] at long
    exact absurd long (by decide)

/-- A narrowed definition and its note stay as they are. -/
theorem Follows.of_noted {new : List SpacedToken} {word gap : List Char}
    (follows : Follows names (new ++ ⟨word, gap⟩ :: us) vs) (named : kind.named name = true)
    (noted : new.map SpacedToken.token = notedTokens (optimizedAlias name))
    (last : word.head? = some 's')
    : ∃ new' gap' vs', vs = new' ++ ⟨word, gap'⟩ :: vs' ∧ Follows names us vs'
      ∧ new'.map SpacedToken.token = notedTokens (optimizedAlias name) := by
  have starts : ∀ kind : TypeKind, ¬ kind.definition.Starts
      ((new ++ ⟨word, gap⟩ :: us).map SpacedToken.token) := by
    intro kind
    rw [List.map_append, noted]
    exact not_starts_noted _
  have plain := plain_of_noted named
  have fixed := narrowedToken_noted names name
  rw [← noted, List.forall_mem_map] at fixed
  obtain ⟨first, more, rfl, opens, words⟩ := List.map_eq_cons_iff.mp noted
  rw [show (notedTokens (optimizedAlias name)).tail = more.map SpacedToken.token from words.symm,
    List.forall_mem_map] at plain
  obtain ⟨gap₁, vs₁, rfl, -, behind⟩ := follows.of_source_cons starts
    (fun percent => absurd (opens.symm.trans percent) (by decide))
  obtain ⟨more', vs₂, rfl, behind, same⟩ := behind.of_source_append plain
  obtain ⟨gap', vs', rfl, -, behind⟩ := behind.of_source_cons
    (fun kind => not_starts_of_ne fun opens => by
      rw [show word = opener from opens] at last
      exact absurd last (by decide))
    (fun percent => by
      rw [show word = ['%'] from percent] at last
      exact absurd last (by decide))
  have unchanged : narrowedToken names word = word :=
    narrowedToken_of_head (by rw [last]; decide)
  have same' : more'.map SpacedToken.token = more.map SpacedToken.token :=
    same.trans (List.map_congr_left fun t among => fixed t (List.mem_cons_of_mem _ among))
  refine ⟨⟨first.token, gap₁⟩ :: more', gap', vs', ?_, behind, ?_⟩
  · rw [fixed first List.mem_cons_self, unchanged, List.cons_append]
  · rw [List.map_cons, same', ← noted, List.map_cons]

/-- A repaired directive stays as it is. -/
theorem Follows.of_repaired {rest gap gap' : List Char}
    (follows : Follows names (⟨['%'], gap⟩ :: ⟨'d' :: rest, gap'⟩ :: us) vs)
    : ∃ gap₁ gap₂ vs', vs = ⟨['%'], gap₁⟩ :: ⟨'d' :: rest, gap₂⟩ :: vs'
      ∧ Follows names us vs' := by
  obtain ⟨gap₁, vs₁, rfl, -, behind⟩ := follows.of_source_cons
    (fun kind => not_starts_of_ne (by decide : ['%'] ≠ opener))
    (fun _ _ _ _ shape decimal => decimal.first_ne shape.symm (c := 'd') rfl rfl)
  obtain ⟨gap₂, vs', rfl, -, behind⟩ := behind.of_source_cons
    (fun kind => not_starts_of_ne fun opens => absurd (List.cons.inj opens).1 (by decide))
    (fun percent => absurd (List.cons.inj percent).1 (by decide))
  rw [narrowedToken_of_head (by decide : ['%'].head? ≠ some 'g'),
    narrowedToken_of_head (by simp)]
  exact ⟨gap₁, gap₂, vs', rfl, behind⟩

/-- Main statement: what follows what follows a text follows the text, with the names of both, by
induction on the length of the text.
-/
theorem Follows.trans (apart : ∀ name ∈ names, optimizedAlias name ∉ others)
    (first : Follows names ts us) (second : Follows others us vs)
    : Follows (names ++ others) ts vs := by
  induction size : ts.length using Nat.strong_induction_on generalizing ts us vs with
  | h size ih =>
      subst size
      have shorter : ∀ (front : List SpacedToken) (t : SpacedToken) (ts : List SpacedToken),
          ts.length < (front ++ t :: ts).length := by
        intro front t ts
        rw [List.length_append, List.length_cons]
        omega
      cases first with
      | nil =>
          obtain rfl := second.of_source_nil
          exact .nil
      | narrowed defines captured noted ended behind =>
          obtain ⟨new, gap, vs', rfl, behind', noted'⟩ :=
            second.of_noted defines.named noted rfl
          exact .narrowed defines (List.mem_append_left _ captured) noted' ended
            (ih _ (shorter _ _ _) behind behind' rfl)
      | taken defines captured noted word behind =>
          obtain ⟨new, gap, vs', rfl, behind', noted'⟩ :=
            second.of_noted defines.named noted rfl
          refine .taken defines (List.mem_append_left _ captured) noted' ?_
            (ih _ (shorter _ _ _) behind (.kept (fun _ => rfl) behind') rfl)
          rwa [head?_narrowedToken_isWord]
      | directive decimal behind =>
          obtain ⟨gap, last, vs', rfl, behind'⟩ := second.of_repaired
          exact .directive decimal (ih _ (by simp) behind behind' rfl)
      | @kept t gap ts us same behind =>
          have whole : Follows names (t :: ts) (⟨narrowedToken names t.token, gap⟩ :: us) :=
            .kept same behind
          generalize middle : ⟨narrowedToken names t.token, gap⟩ :: us = mid at second whole
          cases second with
          | nil => cases middle
          | kept same' behind' =>
              obtain ⟨rfl, rfl⟩ := List.cons.inj middle
              rw [narrowedToken_narrowedToken apart]
              refine .kept (fun closes => ?_) (ih _ (shorter [] _ _) behind behind' rfl)
              have closes' : narrowedToken names t.token = [';'] := by
                rw [closes]
                exact narrowedToken_of_head (by decide)
              exact (same' closes').trans (same closes)
          | narrowed defines captured noted ended behind' =>
              obtain ⟨lead, ts', shape, behind, words⟩ := whole.of_definition defines
                fun other among made => apart other among (made ▸ captured)
              rw [shape] at ih ⊢
              refine .narrowed (words ▸ defines) (List.mem_append_right _ captured) noted ?_
                (ih _ (shorter _ _ _) behind behind' rfl)
              rwa [← behind.startsWord_eq]
          | taken defines captured noted word behind' =>
              obtain ⟨lead, ts', shape, behind, words⟩ := whole.of_definition defines
                fun other among made => apart other among (made ▸ captured)
              rw [shape] at ih ⊢
              exact .taken (words ▸ defines) (List.mem_append_right _ captured) noted word
                (ih _ (shorter _ _ _) behind behind' rfl)
          | directive decimal behind' =>
              obtain ⟨gap', signs, ts', shape, behind, words⟩ := whole.of_directive decimal
              rw [shape] at ih ⊢
              exact .directive (words ▸ decimal) (ih _ (by simp) behind behind' rfl)

end CompressStorage

end RangeTuner.Rewrite
