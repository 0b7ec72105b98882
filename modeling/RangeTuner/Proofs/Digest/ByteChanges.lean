import RangeTuner.Digest
import RangeTuner.Proofs.Words

/-! What digests tell apart. Each step of the hash can be undone: multiplying by an odd constant
loses nothing, and neither does an exclusive or. So a difference in one byte is carried through
whatever comes behind it, and sixteen digits have room for all of the hash. Main statement: lists of
bytes that differ in exactly one place have different digests, and every digest is the tag and
sixteen hexadecimal digits.
-/

namespace RangeTuner.Digest

-----------------------------------------------------------------------------------------
-- Hashes
-----------------------------------------------------------------------------------------

/-- What undoes a multiplication by the multiplier. -/
def unmultiplier : UInt64 :=
  0xce965057aff6957b

/-- Multiplying by the multiplier can be undone. -/
theorem mul_multiplier_inj {word other : UInt64}
    : word * multiplier = other * multiplier ↔ word = other := by
  have undone : multiplier * unmultiplier = 1 := by decide
  exact Word.mul_inj_of_undone undone word other

/-- One byte keeps different hashes apart. -/
theorem mix_left_inj {word other : UInt64} {byte : UInt8}
    : mix word byte = mix other byte ↔ word = other := by
  rw [mix, mix, mul_multiplier_inj, UInt64.xor_left_inj]

/-- Different bytes make different hashes of one. -/
theorem mix_right_inj {word : UInt64} {byte other : UInt8}
    : mix word byte = mix word other ↔ byte = other := by
  rw [mix, mix, mul_multiplier_inj, UInt64.xor_right_inj, UInt8.toUInt64_inj]

/-- Bytes keep different hashes apart, by induction on the bytes. -/
theorem foldl_mix_inj {bytes : List UInt8} {word other : UInt64}
    : bytes.foldl mix word = bytes.foldl mix other ↔ word = other := by
  induction bytes generalizing word other with
  | nil => rfl
  | cons byte rest ih => rw [List.foldl_cons, List.foldl_cons, ih, mix_left_inj]

/-- A byte between the same bytes decides the hash. -/
theorem hash_around_inj {front back : List UInt8} {byte other : UInt8}
    : hash (front ++ byte :: back) = hash (front ++ other :: back) ↔ byte = other := by
  rw [hash, hash, List.foldl_append, List.foldl_append, List.foldl_cons, List.foldl_cons,
    foldl_mix_inj, mix_right_inj]

-----------------------------------------------------------------------------------------
-- Hexadecimal digits
-----------------------------------------------------------------------------------------

/-- The hexadecimal digits with small letters. -/
def hexAlphabet : List Char :=
  "0123456789abcdef".toList

theorem hexDigit_eq_getElem (n : Nat)
    : hexAlphabet[n % 16]? = some (hexDigit n) := by
  have small : n % 16 < 16 := Nat.mod_lt n (by decide)
  unfold hexDigit
  generalize n % 16 = digit at small ⊢
  interval_cases digit <;> rfl

theorem hexDigit_mem (n : Nat)
    : hexDigit n ∈ hexAlphabet :=
  List.mem_of_getElem? (hexDigit_eq_getElem n)

/-- A digit is that of one remainder. -/
theorem hexDigit_inj {n k : Nat}
    : hexDigit n = hexDigit k ↔ n % 16 = k % 16 := by
  refine ⟨fun same => ?_, fun same => by rw [hexDigit, hexDigit, same]⟩
  have single : hexAlphabet.Nodup := by decide
  have below : n % 16 < hexAlphabet.length := Nat.mod_lt n (by decide)
  rw [← List.getElem?_inj below single, hexDigit_eq_getElem, hexDigit_eq_getElem, same]

@[simp] theorem length_hexDigits (count n : Nat)
    : (hexDigits count n).length = count := by
  induction count generalizing n with
  | zero => rfl
  | succ count ih => simp [hexDigits, ih]

theorem mem_hexAlphabet_of_mem {count n : Nat} {c : Char} (member : c ∈ hexDigits count n)
    : c ∈ hexAlphabet := by
  induction count generalizing n with
  | zero => cases member
  | succ count ih =>
      rcases List.mem_append.mp member with higher | lowest
      · exact ih higher
      · rw [List.mem_singleton.mp lowest]
        exact hexDigit_mem n

/-- Numbers that have no further digits are told apart by their digits, by induction on the count of
digits.
-/
theorem hexDigits_inj {count n k : Nat} (room : n < 16 ^ count) (room' : k < 16 ^ count)
    : hexDigits count n = hexDigits count k ↔ n = k := by
  refine ⟨fun same => ?_, congrArg _⟩
  induction count generalizing n k with
  | zero => omega
  | succ count ih =>
      obtain ⟨higher, lowest⟩ := List.append_inj' same rfl
      have quotients : n / 16 = k / 16 := by
        rw [Nat.pow_succ] at room room'
        exact ih (by omega) (by omega) higher
      have remainders : n % 16 = k % 16 := hexDigit_inj.mp (List.singleton_inj.mp lowest)
      omega

-----------------------------------------------------------------------------------------
-- Digests
-----------------------------------------------------------------------------------------

theorem toList_ofBytes (bytes : List UInt8)
    : (ofBytes bytes).toList = "fnv1a64:".toList ++ hexDigits 16 (hash bytes).toNat :=
  String.toList_ofList

/-- The digest tells as much as the hash. -/
theorem ofBytes_inj {bytes others : List UInt8}
    : ofBytes bytes = ofBytes others ↔ hash bytes = hash others := by
  rw [← String.toList_inj, toList_ofBytes, toList_ofBytes, List.append_cancel_left_eq,
    hexDigits_inj (hash bytes).toNat_lt (hash others).toNat_lt, UInt64.toNat_inj]

/-- Lists of one length that differ in exactly one place are the same around it. -/
theorem exists_around {α : Type} {items others : List α} (length : items.length = others.length)
    (one : ∃! place : Nat, items[place]? ≠ others[place]?)
    : ∃ front back a b, items = front ++ a :: back ∧ others = front ++ b :: back ∧ a ≠ b := by
  obtain ⟨place, differs, only⟩ := one
  have below : place < items.length := by
    by_contra beyond
    exact differs (by rw [List.getElem?_eq_none (by omega), List.getElem?_eq_none (by omega)])
  have same (i : Nat) (other : i ≠ place) : items[i]? = others[i]? :=
    by_contra fun differs => other (only i differs)
  have front : items.take place = others.take place := by
    refine List.ext_getElem? fun i => ?_
    rw [List.getElem?_take, List.getElem?_take]
    split
    next before => exact same i (Nat.ne_of_lt before)
    next => rfl
  have back : items.drop (place + 1) = others.drop (place + 1) := by
    refine List.ext_getElem? fun i => ?_
    rw [List.getElem?_drop, List.getElem?_drop]
    exact same _ (by omega)
  refine ⟨items.take place, items.drop (place + 1), items[place], others[place], ?_, ?_, ?_⟩
  · rw [List.getElem_cons_drop, List.take_append_drop]
  · rw [front, back, List.getElem_cons_drop, List.take_append_drop]
  · intro equal
    exact differs (by rw [List.getElem?_eq_getElem below, List.getElem?_eq_getElem, equal])

/-- Main statement: a change of exactly one byte, wherever it is, changes the digest, and every
digest is the tag and sixteen hexadecimal digits with small letters.
-/
theorem digest_detects_byte_change
    : (∀ bytes others : List UInt8, bytes.length = others.length
        → (∃! place : Nat, bytes[place]? ≠ others[place]?) → ofBytes bytes ≠ ofBytes others)
      ∧ ∀ bytes : List UInt8, ∃ digits,
        (ofBytes bytes).toList = "fnv1a64:".toList ++ digits
          ∧ digits.length = 16
          ∧ ∀ c ∈ digits, c ∈ "0123456789abcdef".toList := by
  constructor
  · rintro bytes others length one same
    obtain ⟨front, back, byte, other, rfl, rfl, differs⟩ := exists_around length one
    exact differs (hash_around_inj.mp (ofBytes_inj.mp same))
  · intro bytes
    exact ⟨_, toList_ofBytes bytes, length_hexDigits 16 _, fun c => mem_hexAlphabet_of_mem⟩

theorem digest_detects_middle_change
    : ofBytes [0x5b, 0x30, 0x5d] ≠ ofBytes [0x5b, 0x31, 0x5d]
      ∧ ∃ digits, (ofBytes [0x5b, 0x30, 0x5d]).toList = "fnv1a64:".toList ++ digits
        ∧ digits.length = 16 := by
  obtain ⟨detects, shaped⟩ := digest_detects_byte_change
  obtain ⟨digits, whole, length, -⟩ := shaped [0x5b, 0x30, 0x5d]
  refine ⟨detects _ _ rfl ⟨1, by decide, fun place differs => ?_⟩, digits, whole, length⟩
  match place with
  | 0 => exact absurd rfl differs
  | 1 => rfl
  | _ + 2 => exact absurd rfl differs

end RangeTuner.Digest
