import RangeTuner.Proofs.Text.Scanning

/-! How far scanners look. A scanner made of literals, checks and runs looks at no more than one
character behind what it reads, so it reads the same wherever that character stays. Main
statements: the rules by which this is told of a scanner from its parts.
-/

namespace RangeTuner.Text.Scanner

variable {α β : Type}

/-- The scanner reads a beginning, and reads it again in front of every text that starts as the
text behind it does.
-/
structure Near (scan : Scanner α) : Prop where
  reads : scan.ReadsOnly fun _ => True
  again : ∀ {read rest other : List Char} {found : α},
    scan (read ++ rest) = some (found, rest) → rest.head? = other.head?
    → scan (read ++ other) = some (found, other)

namespace Near

theorem pure (found : α) : Near (Pure.pure found) := by
  refine ⟨.pure found, fun came _ => ?_⟩
  obtain ⟨rfl, same⟩ := Prod.mk.inj (Option.some.inj came)
  obtain rfl := List.append_left_eq_self.mp same
  rfl

theorem guard {holds : Prop} [Decidable holds] : Near (guard holds : Scanner Unit) := by
  refine ⟨.guard, fun came _ => ?_⟩
  obtain ⟨held, same⟩ := guard_eq_some_iff.mp came
  obtain rfl := List.append_left_eq_self.mp same.symm
  exact guard_eq_some_iff.mpr ⟨held, rfl⟩

theorem failure : Near (Alternative.failure : Scanner α) :=
  ⟨.failure, nofun⟩

theorem literal (text : String) : Near (literal text) := by
  refine ⟨.literal (by simp), fun came _ => ?_⟩
  obtain rfl := List.append_cancel_right (literal_eq_some_iff.mp came)
  exact literal_eq_some_iff.mpr rfl

theorem one (p : Char → Bool) : Near (one p) := by
  refine ⟨.one (by simp), fun {read rest other found} came _ => ?_⟩
  obtain ⟨whole, member⟩ := one_eq_some_iff.mp came
  obtain rfl : read = [found] :=
    List.append_cancel_right (whole.trans (List.singleton_append ..).symm)
  exact one_eq_some_iff.mpr ⟨rfl, member⟩

theorem run (p : Char → Bool) : Near (run p) := by
  refine ⟨.run (by simp), fun came same => ?_⟩
  obtain ⟨whole, members, stops⟩ := run_eq_some_iff.mp came
  obtain rfl := List.append_cancel_right whole
  exact run_eq_some_iff.mpr ⟨rfl, members, same ▸ stops⟩

/-- What one scanner and then the next read stays, since the second one starts as before. -/
theorem bind {scan : Scanner α} {next : α → Scanner β} (first : scan.Near)
    (second : ∀ found, (next found).Near)
    : (scan >>= next).Near := by
  refine ⟨first.reads.bind fun found => (second found).reads, ?_⟩
  intro read rest other found came same
  obtain ⟨between, middle, began, ended⟩ := bind_eq_some_iff.mp came
  obtain ⟨start, whole, -⟩ := first.reads _ _ _ began
  obtain ⟨finish, rfl, -⟩ := (second between).reads _ _ _ ended
  rw [← List.append_assoc] at whole
  obtain rfl := List.append_cancel_right whole
  rw [List.append_assoc] at began ⊢
  refine bind_eq_some_iff.mpr ⟨between, finish ++ other, first.again began ?_,
    (second between).again ended same⟩
  rw [List.head?_append, List.head?_append, same]

theorem run1 (p : Char → Bool) : Near (run1 p) :=
  (run p).bind fun _ => guard.bind fun _ => pure _

theorem word : Near word :=
  run1 _

theorem blanks : Near blanks :=
  (run _).bind fun _ => pure _

theorem blanks1 : Near blanks1 :=
  (run1 _).bind fun _ => pure _

theorem spaced (text : String) : Near (spaced text) :=
  blanks.bind fun _ => (literal text).bind fun _ => blanks

theorem upTo (close : Char) : Near (upTo close) :=
  (run _).bind fun _ => (one _).bind fun _ => pure _

/-- A lexeme is found with the same text. -/
theorem lexeme {scan : Scanner α} (near : scan.Near) : Near (lexeme scan) := by
  refine ⟨fun s found rest came => ?_, fun {read rest other found} came same => ?_⟩
  · obtain ⟨⟨result, tail⟩, scanned, whole⟩ := Option.map_eq_some_iff.mp came
    obtain ⟨rfl, rfl⟩ := Prod.mk.inj whole
    exact near.reads _ _ _ scanned
  · obtain ⟨⟨result, tail⟩, scanned, whole⟩ := Option.map_eq_some_iff.mp came
    obtain ⟨rfl, rfl⟩ := Prod.mk.inj whole
    simp [Scanner.lexeme, near.again scanned same]

/-- What may be missing is read again if its first character tells whether it is there. -/
theorem possibly {scan : Scanner Unit} (near : scan.Near)
    (told : ∀ {s t}, s.head? = t.head? → scan s = none → scan t = none)
    : Near (possibly scan) := by
  have branch : ∀ s, Scanner.possibly scan s = (scan s).or (some ((), s)) := by
    intro s
    simp only [Scanner.possibly, HOrElse.hOrElse, OrElse.orElse, Alternative.orElse,
      StateT.orElse, Pure.pure, StateT.pure]
    cases scan s <;> rfl
  refine ⟨.possibly near.reads, fun {read rest other found} came same => ?_⟩
  rw [branch] at came ⊢
  cases scanned : scan (read ++ rest) with
  | some result =>
      rw [scanned] at came
      obtain rfl := Option.some.inj came
      rw [near.again scanned same]
      rfl
  | none =>
      rw [scanned] at came
      obtain rfl := List.append_left_eq_self.mp (Prod.mk.inj (Option.some.inj came)).2
      rw [List.nil_append, told same scanned]
      rfl

end Near

end RangeTuner.Text.Scanner
