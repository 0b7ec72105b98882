import RangeTuner.Decimal.Reading
import RangeTuner.Proofs.Text.Scanning

/-! How decimal literals are spelled: a sign, digits with a point among them, and an exponent, of
which the sign, the point and the exponent may be missing. Main statements: a literal is read where
one is spelled and its spelling cannot go on, and what is read is the spelling of a literal.
-/

namespace RangeTuner.Decimal

open RangeTuner.Text

variable {s rest : List Char}

/-- Digits from 0 to 9, as many as there are. -/
abbrev AllDigits (s : List Char) : Prop :=
  ∀ c ∈ s, c.isDigit = true

/-- What may stand for a sign, and whether it is a minus. -/
inductive SignSpelled : Bool → List Char → Prop
  | absent : SignSpelled false []
  | plus : SignSpelled false ['+']
  | minus : SignSpelled true ['-']

/-- Digits behind the point, with the point. -/
inductive FractionSpelled : List Char → List Char → Prop
  | absent : FractionSpelled [] []
  | point {fraction : List Char} (digits : AllDigits fraction)
    : FractionSpelled fraction ('.' :: fraction)

/-- An exponent with its letter; none stands for zero. -/
inductive ExponentSpelled : Int → List Char → Prop
  | absent : ExponentSpelled 0 []
  | power {letter : Char} {negative : Bool} {sign ds : List Char}
    (known : letter = 'e' ∨ letter = 'E') (signed : SignSpelled negative sign) (filled : ds ≠ [])
    (digits : AllDigits ds)
    : ExponentSpelled (if negative then -(value ds : Int) else value ds) (letter :: (sign ++ ds))

/-- The spelling of a literal, with a digit on one side of the point at least. -/
inductive Literal.Spelled : Literal → List Char → Prop
  | parts {negative : Bool} {exponent : Int} {sign whole fraction point power : List Char}
    (signed : SignSpelled negative sign) (digits : AllDigits whole)
    (pointed : FractionSpelled fraction point) (filled : whole ≠ [] ∨ fraction ≠ [])
    (powered : ExponentSpelled exponent power)
    : Spelled ⟨negative, whole, fraction, exponent⟩ (sign ++ (whole ++ (point ++ power)))

/-- No literal goes on with the character that comes next. -/
def Literal.Ends (rest : List Char) : Prop :=
  ∀ c ∈ rest.head?, c.isDigit = false ∧ c ≠ '.' ∧ c ≠ 'e' ∧ c ≠ 'E'

-----------------------------------------------------------------------------------------
-- Signs, fractions and exponents
-----------------------------------------------------------------------------------------

theorem splitSign_append {negative : Bool} {sign : List Char}
    (signed : SignSpelled negative sign) (unsigned : ∀ c ∈ s.head?, c ≠ '-' ∧ c ≠ '+')
    : splitSign (sign ++ s) = (negative, s) := by
  cases signed with
  | plus | minus => rfl
  | absent =>
      rw [List.nil_append]
      unfold splitSign
      split
      · exact absurd rfl (unsigned '-' rfl).1
      · exact absurd rfl (unsigned '+' rfl).2
      · rfl

theorem exists_sign (s : List Char)
    : ∃ sign, s = sign ++ (splitSign s).2 ∧ SignSpelled (splitSign s).1 sign := by
  fun_cases splitSign s with
  | case1 s => exact ⟨['-'], rfl, .minus⟩
  | case2 s => exact ⟨['+'], rfl, .plus⟩
  | case3 => exact ⟨[], rfl, .absent⟩

/-- The digits behind a point and the text behind them. -/
def splitFraction : List Char → List Char × List Char
  | '.' :: s => (s.takeWhile Char.isDigit, s.dropWhile Char.isDigit)
  | s => ([], s)

theorem splitFraction_append {fraction point : List Char}
    (pointed : FractionSpelled fraction point)
    (ends : ∀ c ∈ s.head?, c.isDigit = false ∧ c ≠ '.')
    : splitFraction (point ++ s) = (fraction, s) := by
  cases pointed with
  | point digits =>
      obtain ⟨taken, left⟩ := Scanner.span_append digits fun c first => (ends c first).1
      rw [List.cons_append, splitFraction, taken, left]
  | absent =>
      rw [List.nil_append]
      unfold splitFraction
      split
      · exact absurd rfl (ends '.' rfl).2
      · rfl

theorem exists_fraction (s : List Char)
    : ∃ point, s = point ++ (splitFraction s).2 ∧ FractionSpelled (splitFraction s).1 point := by
  fun_cases splitFraction s with
  | case1 s =>
      refine ⟨'.' :: s.takeWhile Char.isDigit, ?_, .point fun c member => ?_⟩
      · rw [List.cons_append, List.takeWhile_append_dropWhile]
      · exact List.all_eq_true.mp List.all_takeWhile c member
  | case2 => exact ⟨[], rfl, .absent⟩

theorem exponent?_append {n : Int} {power : List Char} (powered : ExponentSpelled n power)
    (ends : ∀ c ∈ s.head?, c.isDigit = false ∧ c ≠ 'e' ∧ c ≠ 'E')
    : exponent? (power ++ s) = some (n, s) := by
  cases powered with
  | absent =>
      cases s with
      | nil => rfl
      | cons c s =>
          obtain ⟨-, small, large⟩ := ends c rfl
          simp [exponent?, small, large]
  | power known signed filled digits =>
      rename_i letter negative sign ds
      have unsigned : ∀ c ∈ (ds ++ s).head?, c ≠ '-' ∧ c ≠ '+' := by
        obtain ⟨d, ds, rfl⟩ := List.exists_cons_of_ne_nil filled
        rintro c ⟨⟩
        have digit := digits d List.mem_cons_self
        constructor
        · rintro rfl
          cases digit
        · rintro rfl
          cases digit
      obtain ⟨taken, left⟩ := Scanner.span_append digits fun c first => (ends c first).1
      simp only [List.cons_append, List.append_assoc, exponent?]
      rw [if_pos known, splitSign_append signed unsigned]
      simp only [taken, left]
      rw [if_neg (by simpa using filled)]

theorem exists_power {n : Int} (read : exponent? s = some (n, rest))
    : ∃ power, s = power ++ rest ∧ ExponentSpelled n power := by
  cases s with
  | nil =>
      obtain ⟨rfl, rfl⟩ := Prod.mk.inj (Option.some.inj read)
      exact ⟨[], rfl, .absent⟩
  | cons c s =>
      simp only [exponent?] at read
      split at read
      · next known =>
          split at read
          · cases read
          · next filled =>
              obtain ⟨rfl, rfl⟩ := Prod.mk.inj (Option.some.inj read)
              obtain ⟨sign, whole, signed⟩ := exists_sign s
              refine ⟨c :: (sign ++ (splitSign s).2.takeWhile Char.isDigit), ?_,
                .power known signed (by simpa using filled) fun d member =>
                  List.all_eq_true.mp List.all_takeWhile d member⟩
              rw [List.cons_append, List.append_assoc, List.takeWhile_append_dropWhile, ← whole]
      · obtain ⟨rfl, rfl⟩ := Prod.mk.inj (Option.some.inj read)
        exact ⟨[], rfl, .absent⟩

-----------------------------------------------------------------------------------------
-- Literals
-----------------------------------------------------------------------------------------

namespace Literal

/-- A literal is read part by part. -/
theorem ofPrefix?_eq (s : List Char)
    : ofPrefix? s
      = let (negative, unsigned) := splitSign s
        let whole := unsigned.takeWhile Char.isDigit
        let (fraction, after) := splitFraction (unsigned.dropWhile Char.isDigit)
        if whole.isEmpty && fraction.isEmpty then none
        else (exponent? after).bind fun (n, rest) => some (⟨negative, whole, fraction, n⟩, rest) :=
  rfl

/-- A literal starts with a sign, a digit or its point. -/
theorem Spelled.exists_cons {l : Literal} {text : List Char} (spelled : l.Spelled text)
    : ∃ c more, text = c :: more ∧ (c.isDigit = true ∨ c = '+' ∨ c = '-' ∨ c = '.') := by
  obtain ⟨signed, digits, pointed, filled, -⟩ := spelled
  cases signed with
  | plus => exact ⟨_, _, rfl, .inr (.inl rfl)⟩
  | minus => exact ⟨_, _, rfl, .inr (.inr (.inl rfl))⟩
  | absent =>
      rename_i whole fraction point power
      cases whole with
      | cons d whole => exact ⟨_, _, rfl, .inl (digits d List.mem_cons_self)⟩
      | nil =>
          cases pointed with
          | point => exact ⟨_, _, rfl, .inr (.inr (.inr rfl))⟩
          | absent => simp at filled

/-- A literal is read where one is spelled that cannot go on. -/
theorem Spelled.ofPrefix? {l : Literal} {text : List Char} (spelled : l.Spelled text)
    (ends : Ends rest)
    : Literal.ofPrefix? (text ++ rest) = some (l, rest) := by
  obtain ⟨signed, digits, pointed, filled, powered⟩ := spelled
  rename_i negative exponent sign whole fraction point power
  -- the power starts with its letter, and the text behind it with no character of a literal
  have powerHead : ∀ c ∈ (power ++ rest).head?, c.isDigit = false ∧ c ≠ '.' := by
    cases powered with
    | absent => exact fun c first => ⟨(ends c first).1, (ends c first).2.1⟩
    | power known => rcases known with rfl | rfl <;> rintro c ⟨⟩ <;> decide
  have pointHead : ∀ c ∈ (point ++ (power ++ rest)).head?, c.isDigit = false := by
    cases pointed with
    | absent => exact fun c first => (powerHead c first).1
    | point => rintro c ⟨⟩; rfl
  have unsigned : ∀ c ∈ (whole ++ (point ++ (power ++ rest))).head?, c ≠ '-' ∧ c ≠ '+' := by
    cases whole with
    | cons d whole =>
        rintro c ⟨⟩
        have digit := digits d List.mem_cons_self
        constructor <;> rintro rfl <;> cases digit
    | nil =>
        cases pointed with
        | absent => simp at filled
        | point => rintro c ⟨⟩; decide
  obtain ⟨taken, left⟩ := Scanner.span_append digits pointHead
  have some_digit : (whole.isEmpty && fraction.isEmpty) = false := by
    rcases filled with filled | filled <;> simp [filled]
  have read := exponent?_append powered fun c first => ⟨(ends c first).1, (ends c first).2.2⟩
  rw [ofPrefix?_eq]
  simp only [List.append_assoc, splitSign_append signed unsigned, taken, left,
    splitFraction_append pointed powerHead, some_digit, Bool.false_eq_true, if_false, read,
    Option.bind_some]

/-- What is read is the spelling of a literal. -/
theorem exists_spelled {l : Literal} (read : ofPrefix? s = some (l, rest))
    : ∃ text, s = text ++ rest ∧ l.Spelled text := by
  rw [ofPrefix?_eq] at read
  dsimp only at read
  split at read
  · cases read
  · next filled =>
      obtain ⟨⟨n, _⟩, powered, same⟩ := Option.bind_eq_some_iff.mp read
      obtain ⟨rfl, rfl⟩ := Prod.mk.inj (Option.some.inj same)
      obtain ⟨sign, signWhole, signed⟩ := exists_sign s
      obtain ⟨point, pointWhole, pointed⟩ :=
        exists_fraction ((splitSign s).2.dropWhile Char.isDigit)
      obtain ⟨power, powerWhole, powered⟩ := exists_power powered
      refine ⟨_, ?_, .parts signed (fun c member => List.all_eq_true.mp List.all_takeWhile c member)
        pointed ?_ powered⟩
      · rw [List.append_assoc, List.append_assoc, List.append_assoc, ← powerWhole, ← pointWhole,
          List.takeWhile_append_dropWhile, ← signWhole]
      · simpa [Classical.or_iff_not_imp_left] using filled

end Literal

end RangeTuner.Decimal
