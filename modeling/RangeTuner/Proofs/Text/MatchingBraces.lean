import RangeTuner.Proofs.Text.BlockBraces

/-! Where the brace stands that closes a block, as a place among the bytes of a text. A search
counts the open blocks byte by byte, and would stop at a closing brace that it comes to while none
is open. Bytes of other characters are no braces, so the search sees the characters of the text.
Main statement: from an opening brace on, the search ends at the least place up to which there are
as many closing as opening braces, if there is one, and that is the end of the block that is read
character by character; it never stops for want of an open block.
-/

namespace RangeTuner.Text

-----------------------------------------------------------------------------------------
-- The search over bytes
-----------------------------------------------------------------------------------------

/-- The bytes of a text in UTF-8. -/
def utf8 (s : List Char) : List UInt8 :=
  s.flatMap String.utf8EncodeChar

/-- The byte of an opening brace. -/
def openingBrace : UInt8 :=
  0x7b

/-- The byte of a closing brace. -/
def closingBrace : UInt8 :=
  0x7d

/-- How a search for the brace that closes a block ends. -/
inductive BraceSearch where
  /-- At the brace, in a place. -/
  | found (place : Nat)
  /-- At the end of the text, with blocks still open. -/
  | missing
  /-- At a closing brace, with no block open. -/
  | underflow
deriving DecidableEq, Repr

/-- The place of the brace, if the search ends at it. -/
def BraceSearch.place? : BraceSearch → Option Nat
  | .found place => some place
  | .missing => none
  | .underflow => none

/-- Searches bytes, the first one in a place, with a number of blocks open. -/
def braceSearchFrom (depth place : Nat) : List UInt8 → BraceSearch
  | [] => .missing
  | byte :: bytes =>
      if byte = openingBrace then braceSearchFrom (depth + 1) (place + 1) bytes
      else if byte = closingBrace then
        match depth with
        | 0 => .underflow
        | 1 => .found place
        | depth + 2 => braceSearchFrom (depth + 1) (place + 1) bytes
      else braceSearchFrom depth (place + 1) bytes

/-- The search from a place of a text on, with no block open yet. -/
def braceSearch (text : List Char) (opening : Nat) : BraceSearch :=
  braceSearchFrom 0 opening ((utf8 text).drop opening)

/-- The place of the brace that closes the block opened in a place of a text. -/
def matchingBrace? (text : List Char) (opening : Nat) : Option Nat :=
  (braceSearch text opening).place?

/-- From a place of a text up to another one, both included, there are as many closing as opening
braces.
-/
def EvenUpTo (text : List Char) (opening i : Nat) : Prop :=
  opening ≤ i ∧ i < (utf8 text).length
    ∧ (((utf8 text).take (i + 1)).drop opening).count openingBrace
      = (((utf8 text).take (i + 1)).drop opening).count closingBrace

variable {depth behind place opening i : Nat} {text : List Char} {byte : UInt8}
  {bytes front back later : List UInt8}

theorem braceSearchFrom_opening (depth place : Nat) (bytes : List UInt8)
    : braceSearchFrom depth place (openingBrace :: bytes)
      = braceSearchFrom (depth + 1) (place + 1) bytes :=
  if_pos rfl

theorem braceSearchFrom_last (place : Nat) (bytes : List UInt8)
    : braceSearchFrom 1 place (closingBrace :: bytes) = .found place :=
  (if_neg (by decide)).trans (if_pos rfl)

theorem braceSearchFrom_closing (depth place : Nat) (bytes : List UInt8)
    : braceSearchFrom (depth + 2) place (closingBrace :: bytes)
      = braceSearchFrom (depth + 1) (place + 1) bytes :=
  (if_neg (by decide)).trans (if_pos rfl)

theorem braceSearchFrom_plain (notOpening : byte ≠ openingBrace) (notClosing : byte ≠ closingBrace)
    : braceSearchFrom depth place (byte :: bytes) = braceSearchFrom depth (place + 1) bytes :=
  (if_neg notOpening).trans (if_neg notClosing)

-----------------------------------------------------------------------------------------
-- Where a search ends
-----------------------------------------------------------------------------------------

/-- The excess of opening over closing braces of bytes. -/
def byteExcess (bytes : List UInt8) : Int :=
  bytes.count openingBrace - bytes.count closingBrace

theorem byteExcess_append (front back : List UInt8)
    : byteExcess (front ++ back) = byteExcess front + byteExcess back := by
  simp only [byteExcess, List.count_append]
  omega

theorem byteExcess_cons (byte : UInt8) (bytes : List UInt8)
    : byteExcess (byte :: bytes) = byteExcess [byte] + byteExcess bytes :=
  byteExcess_append [byte] bytes

theorem byteExcess_opening
    : byteExcess [openingBrace] = 1 := by
  decide

theorem byteExcess_closing
    : byteExcess [closingBrace] = -1 := by
  decide

theorem byteExcess_plain (notOpening : byte ≠ openingBrace) (notClosing : byte ≠ closingBrace)
    : byteExcess [byte] = 0 := by
  simp [byteExcess, notOpening, notClosing]

/-- With a number of blocks open, no beginning of the bytes closes all of them. -/
def StaysInside (depth : Nat) (bytes : List UInt8) : Prop :=
  ∀ start, start <+: bytes → 0 < depth + byteExcess start

theorem staysInside_nil (inside : 0 < depth)
    : StaysInside depth [] := by
  intro start begins
  rw [List.prefix_nil.mp begins]
  simpa [byteExcess] using inside

theorem StaysInside.cons (inside : 0 < depth) (step : behind = depth + byteExcess [byte])
    (stays : StaysInside behind bytes)
    : StaysInside depth (byte :: bytes) := by
  intro start begins
  rcases List.prefix_cons_iff.mp begins with rfl | ⟨more, rfl, within⟩
  · exact staysInside_nil inside [] List.nil_prefix
  · have later := stays more within
    rw [byteExcess_cons]
    omega

/-- How a search with blocks open ends: at the end of bytes that leave a block open all along, or at
the first brace that leaves none open.
-/
inductive EndsAt (depth place : Nat) : List UInt8 → BraceSearch → Prop
  | missing {bytes : List UInt8} (stays : StaysInside depth bytes)
      : EndsAt depth place bytes .missing
  | found {front back : List UInt8} (stays : StaysInside depth front)
      (last : depth + byteExcess front = 1)
      : EndsAt depth place (front ++ closingBrace :: back) (.found (place + front.length))

/-- A search ends where the search behind its first byte ends, if that leaves a block open. -/
theorem EndsAt.cons {ending : BraceSearch} (inside : 0 < depth)
    (step : behind = depth + byteExcess [byte]) (ends : EndsAt behind (place + 1) bytes ending)
    : EndsAt depth place (byte :: bytes) ending := by
  cases ends with
  | missing stays => exact .missing (stays.cons inside step)
  | @found front back stays last =>
      have shift : place + 1 + front.length = place + (byte :: front).length := by
        rw [List.length_cons]
        omega
      rw [shift, ← List.cons_append]
      refine .found (stays.cons inside step) ?_
      rw [byteExcess_cons]
      omega

/-- A search with blocks open ends at the brace that closes the outermost one, or at the end of the
bytes, by induction on the bytes.
-/
theorem endsAt_braceSearchFrom (inside : 0 < depth) (place : Nat) (bytes : List UInt8)
    : EndsAt depth place bytes (braceSearchFrom depth place bytes) := by
  induction bytes generalizing depth place with
  | nil => exact .missing (staysInside_nil inside)
  | cons byte bytes ih =>
      by_cases opens : byte = openingBrace
      · subst opens
        rw [braceSearchFrom_opening]
        exact (ih (by omega) (place + 1)).cons inside (by rw [byteExcess_opening]; rfl)
      · by_cases closes : byte = closingBrace
        · subst closes
          match depth with
          | 1 =>
              rw [braceSearchFrom_last]
              exact @EndsAt.found 1 place [] bytes (staysInside_nil inside) rfl
          | depth + 2 =>
              rw [braceSearchFrom_closing]
              exact (ih (by omega) (place + 1)).cons inside
                (by rw [byteExcess_closing]; omega)
        · rw [braceSearchFrom_plain opens closes]
          exact (ih inside (place + 1)).cons inside
            (by rw [byteExcess_plain opens closes, add_zero])

-----------------------------------------------------------------------------------------
-- The least place
-----------------------------------------------------------------------------------------

/-- From an opening brace on, the bytes up to a place are even where those behind the brace have one
more closing than opening brace.
-/
theorem evenUpTo_iff (split : utf8 text = front ++ openingBrace :: later)
    : EvenUpTo text front.length i
      ↔ ∃ n, i = front.length + n ∧ n ≤ later.length ∧ 1 + byteExcess (later.take n) = 0 := by
  have whole : (utf8 text).length = front.length + (later.length + 1) := by
    rw [split, List.length_append, List.length_cons]
  have part (n : Nat) : ((utf8 text).take (front.length + n + 1)).drop front.length
      = openingBrace :: later.take n := by
    rw [split, Nat.add_assoc, List.take_length_add_append, List.drop_left, List.take_succ_cons]
  have counted (n : Nat) : (openingBrace :: later.take n).count openingBrace
      = (openingBrace :: later.take n).count closingBrace
        ↔ 1 + byteExcess (later.take n) = 0 := by
    rw [← byteExcess_opening, ← byteExcess_cons, byteExcess]
    omega
  constructor
  · rintro ⟨reached, within, even⟩
    obtain ⟨n, rfl⟩ := Nat.exists_eq_add_of_le reached
    rw [part, counted] at even
    exact ⟨n, rfl, by omega, even⟩
  · rintro ⟨n, rfl, within, even⟩
    rw [← counted, ← part] at even
    exact ⟨by omega, by omega, even⟩

/-- Where a search ends at a brace, the bytes are even up to it, and up to no place before. -/
theorem isLeast_of_found
    (split : utf8 text = front ++ openingBrace :: (bytes ++ closingBrace :: back))
    (stays : StaysInside 1 bytes) (last : (1 : Nat) + byteExcess bytes = 1)
    : IsLeast {i | EvenUpTo text front.length i} (front.length + 1 + bytes.length) := by
  constructor
  · refine (evenUpTo_iff split).mpr ⟨bytes.length + 1, by omega, by simp, ?_⟩
    rw [List.take_length_add_append, byteExcess_append, List.take_succ_cons, List.take_zero,
      byteExcess_closing]
    omega
  · intro i even
    obtain ⟨n, rfl, -, closed⟩ := (evenUpTo_iff split).mp even
    by_contra before
    have inside : n ≤ bytes.length := by omega
    rw [List.take_append_of_le_length inside] at closed
    have positive := stays _ (List.take_prefix n bytes)
    omega

/-- Where a search ends at the end of the bytes, they are even up to no place. -/
theorem not_evenUpTo_of_missing (split : utf8 text = front ++ openingBrace :: later)
    (stays : StaysInside 1 later)
    : ¬ EvenUpTo text front.length i := by
  rw [evenUpTo_iff split]
  rintro ⟨n, -, -, even⟩
  have positive := stays _ (List.take_prefix n later)
  omega

-----------------------------------------------------------------------------------------
-- Bytes of characters
-----------------------------------------------------------------------------------------

/-- A byte below 128 is among the bytes of no character but the one with its number. -/
theorem toNat_of_mem_utf8EncodeChar {c : Char} (member : byte ∈ String.utf8EncodeChar c)
    (ascii : byte.toNat < 128)
    : c.toNat = byte.toNat := by
  have same : c.toNat = c.val.toNat := rfl
  -- With two bytes or more, each of them has 128 added to it, and more to the first one.
  rw [String.utf8EncodeChar] at member
  split_ifs at member <;>
    simp only [List.mem_cons, List.not_mem_nil, or_false, ← UInt8.toNat_inj,
      UInt8.toNat_ofNat'] at member <;>
    omega

theorem eq_of_opening_mem {c : Char} (member : openingBrace ∈ String.utf8EncodeChar c)
    : c = '{' :=
  Char.toNat_inj.mp (toNat_of_mem_utf8EncodeChar member (by decide))

theorem eq_of_closing_mem {c : Char} (member : closingBrace ∈ String.utf8EncodeChar c)
    : c = '}' :=
  Char.toNat_inj.mp (toNat_of_mem_utf8EncodeChar member (by decide))

theorem utf8_cons (c : Char) (s : List Char)
    : utf8 (c :: s) = String.utf8EncodeChar c ++ utf8 s :=
  rfl

theorem utf8_opening (s : List Char)
    : utf8 ('{' :: s) = openingBrace :: utf8 s :=
  rfl

theorem utf8_closing (s : List Char)
    : utf8 ('}' :: s) = closingBrace :: utf8 s :=
  rfl

theorem utf8_append (s t : List Char)
    : utf8 (s ++ t) = utf8 s ++ utf8 t :=
  List.flatMap_append

/-- A search goes on behind bytes without braces, by induction on the bytes. -/
theorem braceSearchFrom_append (opening : openingBrace ∉ front) (closing : closingBrace ∉ front)
    : braceSearchFrom depth place (front ++ back)
      = braceSearchFrom depth (place + front.length) back := by
  induction front generalizing place with
  | nil => rfl
  | cons byte bytes ih =>
      rw [List.mem_cons, not_or] at opening closing
      obtain ⟨notOpening, noOpening⟩ := opening
      obtain ⟨notClosing, noClosing⟩ := closing
      rw [List.cons_append, braceSearchFrom_plain (Ne.symm notOpening) (Ne.symm notClosing),
        ih noOpening noClosing, List.length_cons, Nat.add_assoc, Nat.add_comm 1]

/-- The place behind the inside of a block moves with each character of it. -/
theorem map_place_cons (c : Char) (place : Nat) (split? : Option (List Char × List Char))
    : ((split?.map fun (inside, rest) => (c :: inside, rest)).map fun split =>
        place + (utf8 split.1).length)
      = split?.map fun split =>
        place + (String.utf8EncodeChar c).length + (utf8 split.1).length := by
  rw [Option.map_map]
  refine congrArg (Option.map · split?) (funext fun ⟨inside, rest⟩ => ?_)
  simp only [Function.comp_apply, utf8_cons, List.length_append]
  omega

/-- A search through the bytes of a text finds the brace at which the text is split, by induction on
the text.
-/
theorem place?_braceSearchFrom (depth place : Nat) (s : List Char)
    : (braceSearchFrom (depth + 1) place (utf8 s)).place?
      = (splitAtClose? depth s).map fun split => place + (utf8 split.1).length := by
  fun_induction splitAtClose? depth s generalizing place with
  | case1 depth => rfl
  | case2 s =>
      rw [utf8_closing, braceSearchFrom_last]
      rfl
  | case3 depth s ih =>
      rw [utf8_closing, braceSearchFrom_closing, ih, map_place_cons]
      rfl
  | case4 depth s ih =>
      rw [utf8_opening, braceSearchFrom_opening, ih, map_place_cons]
      rfl
  | case5 depth c s notLast notClose notOpen ih =>
      have noOpening : openingBrace ∉ String.utf8EncodeChar c := fun member =>
        notOpen (eq_of_opening_mem member)
      have noClosing : closingBrace ∉ String.utf8EncodeChar c := fun member => by
        obtain rfl := eq_of_closing_mem member
        cases depth with
        | zero => exact notLast rfl rfl
        | succ n => exact notClose n rfl rfl
      rw [utf8_cons, braceSearchFrom_append noOpening noClosing, ih, map_place_cons]

/-- An opening brace among the bytes of a text is a character of it, by induction on the text. -/
theorem exists_split_of_opening (opens : (utf8 text)[opening]? = some openingBrace)
    : ∃ front s, text = front ++ '{' :: s ∧ (utf8 front).length = opening := by
  induction text generalizing opening with
  | nil => cases opens
  | cons c rest ih =>
      rw [utf8_cons, List.getElem?_append] at opens
      split at opens
      next first =>
        obtain rfl := eq_of_opening_mem (List.mem_of_getElem? opens)
        have start : opening = 0 := Nat.lt_one_iff.mp first
        exact ⟨[], rest, rfl, start.symm⟩
      next later =>
        obtain ⟨front, s, rfl, length⟩ := ih opens
        refine ⟨c :: front, s, rfl, ?_⟩
        rw [utf8_cons, List.length_append, length]
        omega

-----------------------------------------------------------------------------------------
-- Searches from an opening brace on
-----------------------------------------------------------------------------------------

theorem utf8_around (front s : List Char)
    : utf8 (front ++ '{' :: s) = utf8 front ++ openingBrace :: utf8 s := by
  rw [utf8_append, utf8_opening]

/-- The first brace opens a block. -/
theorem braceSearch_around (front s : List Char)
    : braceSearch (front ++ '{' :: s) (utf8 front).length
      = braceSearchFrom 1 ((utf8 front).length + 1) (utf8 s) := by
  rw [braceSearch, utf8_around, List.drop_left, braceSearchFrom_opening]

/-- A search ends at the least even place, or at the end if there is none. -/
theorem braceSearch_cases (front s : List Char)
    : (braceSearch (front ++ '{' :: s) (utf8 front).length = .missing
        ∧ ∀ i, ¬ EvenUpTo (front ++ '{' :: s) (utf8 front).length i)
      ∨ ∃ i, braceSearch (front ++ '{' :: s) (utf8 front).length = .found i
        ∧ IsLeast {i | EvenUpTo (front ++ '{' :: s) (utf8 front).length i} i := by
  have whole := utf8_around front s
  have ends := endsAt_braceSearchFrom Nat.one_pos ((utf8 front).length + 1) (utf8 s)
  rw [braceSearch_around]
  generalize utf8 s = later at whole ends ⊢
  generalize braceSearchFrom 1 ((utf8 front).length + 1) later = ending at ends
  cases ends with
  | missing stays => exact .inl ⟨rfl, fun i => not_evenUpTo_of_missing whole stays⟩
  | found stays last => exact .inr ⟨_, rfl, isLeast_of_found whole stays last⟩

theorem braceSearch_ne_underflow (front s : List Char)
    : braceSearch (front ++ '{' :: s) (utf8 front).length ≠ .underflow := by
  rcases braceSearch_cases front s with ⟨missing, -⟩ | ⟨i, found, -⟩
  · rw [missing]
    nofun
  · rw [found]
    nofun

theorem matchingBrace?_eq_some_iff (front s : List Char) (i : Nat)
    : matchingBrace? (front ++ '{' :: s) (utf8 front).length = some i
      ↔ IsLeast {i | EvenUpTo (front ++ '{' :: s) (utf8 front).length i} i := by
  rcases braceSearch_cases front s with ⟨missing, none⟩ | ⟨place, found, least⟩
  · rw [matchingBrace?, missing]
    exact ⟨nofun, fun least => absurd least.1 (none i)⟩
  · rw [matchingBrace?, found, BraceSearch.place?, Option.some_inj]
    exact ⟨fun same => same ▸ least, least.unique⟩

theorem matchingBrace?_eq_none_iff (front s : List Char)
    : matchingBrace? (front ++ '{' :: s) (utf8 front).length = none
      ↔ ∀ i, ¬ EvenUpTo (front ++ '{' :: s) (utf8 front).length i := by
  rcases braceSearch_cases front s with ⟨missing, none⟩ | ⟨place, found, least⟩
  · rw [matchingBrace?, missing]
    exact ⟨fun _ => none, fun _ => rfl⟩
  · rw [matchingBrace?, found]
    exact ⟨nofun, fun none => absurd least.1 (none place)⟩

/-- The search finds the end of the block that is read character by character. -/
theorem matchingBrace?_around (front s : List Char)
    : matchingBrace? (front ++ '{' :: s) (utf8 front).length
      = (block? s).map fun block => (utf8 front).length + 1 + (utf8 block.1).length := by
  rw [matchingBrace?, braceSearch_around]
  exact place?_braceSearchFrom 0 _ s

/-- Where a search finds a place, a closing brace stands there, and what it closes is balanced. -/
theorem inside_of_matchingBrace? {front s : List Char}
    (found : matchingBrace? (front ++ '{' :: s) (utf8 front).length = some i)
    : (utf8 (front ++ '{' :: s))[i]? = some closingBrace
      ∧ ∃ inside, Balanced inside
        ∧ ((utf8 (front ++ '{' :: s)).take i).drop ((utf8 front).length + 1) = utf8 inside := by
  rw [matchingBrace?_around] at found
  obtain ⟨⟨inside, rest⟩, block, rfl⟩ := Option.map_eq_some_iff.mp found
  have bytes : utf8 (front ++ '{' :: s)
      = (utf8 front ++ [openingBrace]) ++ (utf8 inside ++ closingBrace :: utf8 rest) := by
    rw [eq_append_of_splitAtClose? block, utf8_around, utf8_append, utf8_closing]
    simp
  have length : (utf8 front).length + 1 = (utf8 front ++ [openingBrace]).length := by simp
  refine ⟨?_, inside, balanced_of_block? block, ?_⟩
  · rw [bytes, length, ← List.append_assoc, ← List.length_append,
      List.getElem?_append_right (Nat.le_refl _), Nat.sub_self]
    rfl
  · rw [bytes, length, List.take_length_add_append, List.drop_left, List.take_left]

/-- Main statement: from an opening brace on, a search never comes to a closing brace while no
block is open. It finds a place exactly where that is the least one up to which there are as many
closing as opening braces, and ends without one exactly where there is no such place. A closing
brace stands in the place that is found, the bytes between the two braces are those of a balanced
text, and the place is the end of the block that the text is cut into character by character.
-/
theorem matching_brace_is_least_even_place (opens : (utf8 text)[opening]? = some openingBrace)
    : braceSearch text opening ≠ .underflow
      ∧ (∀ i, matchingBrace? text opening = some i ↔ IsLeast {i | EvenUpTo text opening i} i)
      ∧ (matchingBrace? text opening = none ↔ ∀ i, ¬ EvenUpTo text opening i)
      ∧ (∀ i, matchingBrace? text opening = some i
        → (utf8 text)[i]? = some closingBrace
          ∧ ∃ inside, Balanced inside
            ∧ ((utf8 text).take i).drop (opening + 1) = utf8 inside)
      ∧ ∃ front s, text = front ++ '{' :: s
        ∧ (utf8 front).length = opening
        ∧ (matchingBrace? text opening
          = (block? s).map fun block => opening + 1 + (utf8 block.1).length)
        ∧ ∀ inside rest, block? s = some (inside, rest) → s = inside ++ '}' :: rest := by
  obtain ⟨front, s, rfl, rfl⟩ := exists_split_of_opening opens
  exact ⟨braceSearch_ne_underflow front s, matchingBrace?_eq_some_iff front s,
    matchingBrace?_eq_none_iff front s, fun i => inside_of_matchingBrace?, front, s, rfl, rfl,
    matchingBrace?_around front s, fun inside rest => eq_append_of_splitAtClose?⟩

/-- A block behind a character of two bytes, with a block in it and a brace too many behind it. -/
theorem matching_brace_behind_accent
    : (utf8 ['é', '{', 'a', '{', '}', '}', '}'])[2]? = some openingBrace
      ∧ matchingBrace? ['é', '{', 'a', '{', '}', '}', '}'] 2 = some 6
      ∧ IsLeast {i | EvenUpTo ['é', '{', 'a', '{', '}', '}', '}'] 2 i} 6 := by
  have opens : (utf8 ['é', '{', 'a', '{', '}', '}', '}'])[2]? = some openingBrace := by decide
  have found : matchingBrace? ['é', '{', 'a', '{', '}', '}', '}'] 2 = some 6 := by decide
  obtain ⟨-, atLeast, -⟩ := matching_brace_is_least_even_place opens
  exact ⟨opens, found, (atLeast 6).mp found⟩

end RangeTuner.Text
