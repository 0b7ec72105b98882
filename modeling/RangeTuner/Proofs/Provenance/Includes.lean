import RangeTuner.Proofs.Rewrite.LeadingLines
import RangeTuner.Provenance

/-! Includes of headers. An include is written on one line, in brackets or in quotes, and is read up
to its closing sign. Main statement: where an include of a header is written, the name that is read
is the one of the header.
-/

namespace RangeTuner.Provenance

open RangeTuner.Rewrite RangeTuner.Rewrite.ZoneConstants RangeTuner.Text

variable {name directive : List Char}

/-- The name of a header that is read back from its include. -/
structure Includable (name : List Char) : Prop where
  filled : name ≠ []
  unquoted : (name.all fun c => c ≠ '>' && c ≠ '"') = true
  trimmed : trim name = name
  single : '\n' ∉ name

theorem includable_of_required {name : String} (required : name ∈ requiredHeaders)
    : Includable name.toList := by
  have each : ∀ name ∈ requiredHeaders, name.toList ≠ []
      ∧ (name.toList.all fun c => c ≠ '>' && c ≠ '"') = true
      ∧ trim name.toList = name.toList ∧ '\n' ∉ name.toList := by decide +kernel
  obtain ⟨filled, unquoted, trimmed, single⟩ := each name required
  exact ⟨filled, unquoted, trimmed, single⟩

/-- The signs around the name of a header: brackets, or quotes. -/
def Encloses (opening closing : Char) : Prop :=
  opening = '<' ∧ closing = '>' ∨ opening = '"' ∧ closing = '"'

/-- An include of a header, from the beginning of its line to its closing sign. -/
inductive IsInclude (name : List Char) : List Char → Prop
  | written {indent gap space : List Char} {opening closing : Char} (indented : IsGap indent)
    (apart : IsGap gap) (spaced : IsGap space) (encloses : Encloses opening closing)
    : IsInclude name
        (indent ++ '#' :: (gap ++ ("include".toList ++ (space ++ opening :: (name ++ [closing])))))

theorem isBlank_of_isGap {space : List Char} (spaced : IsGap space)
    : ∀ c ∈ space, isBlank c = true := by
  intro c member
  rcases spaced c member with rfl | rfl <;> decide

/-- An include is read up to its closing sign, and what is found is the name of its header. -/
theorem IsInclude.scan (written : IsInclude name directive) (includable : Includable name)
    (t : List Char)
    : includeLine.scan (directive ++ t) = some (name, t) := by
  obtain ⟨indented, apart, spaced, encloses⟩ := written
  rename_i indent gap space opening closing
  have opens : (opening == '<' || opening == '"') = true ∧ isBlank opening = false := by
    rcases encloses with ⟨rfl, -⟩ | ⟨rfl, -⟩ <;> decide
  have closes : (closing == '>' || closing == '"') = true
      ∧ (closing ≠ '>' && closing ≠ '"') = false := by
    rcases encloses with ⟨-, rfl⟩ | ⟨-, rfl⟩ <;> decide
  have blanks : Scanner.blanks (space ++ opening :: (name ++ closing :: t))
      = some ((), opening :: (name ++ closing :: t)) := by
    refine Scanner.blanks_eq_some_iff.mpr
      ⟨space, Scanner.run_eq_some_iff.mpr ⟨rfl, isBlank_of_isGap spaced, ?_⟩⟩
    rintro c ⟨⟩
    exact opens.2
  have ran : Scanner.run (fun c => c ≠ '>' && c ≠ '"') (name ++ closing :: t)
      = some (name, closing :: t) := by
    refine Scanner.run_eq_some_iff.mpr ⟨rfl, List.all_eq_true.mp includable.unquoted, ?_⟩
    rintro c ⟨⟩
    exact closes.2
  have read : Scanner.run1 (fun c => c ≠ '>' && c ≠ '"') (name ++ closing :: t)
      = some (name, closing :: t) :=
    Scanner.run1_eq_some_iff.mpr ⟨includable.filled, ran⟩
  have whole : indent ++ '#' :: (gap ++ ("include".toList
        ++ (space ++ opening :: (name ++ [closing])))) ++ t
      = indent ++ ("#".toList ++ (gap ++ ("include".toList
        ++ (space ++ opening :: (name ++ closing :: t))))) := by simp
  rw [whole]
  refine Scanner.bind_eq_some_iff.mpr
    ⟨(), _, gap_eq_some_iff.mpr ⟨indent, rfl, indented, ?_⟩, ?_⟩
  · rintro c ⟨⟩
    decide
  refine Scanner.bind_eq_some_iff.mpr ⟨(), _, Scanner.literal_eq_some_iff.mpr rfl, ?_⟩
  refine Scanner.bind_eq_some_iff.mpr ⟨(), _, gap_eq_some_iff.mpr ⟨gap, rfl, apart, ?_⟩, ?_⟩
  · rintro c ⟨⟩
    decide
  refine Scanner.bind_eq_some_iff.mpr ⟨(), _, Scanner.literal_eq_some_iff.mpr rfl, ?_⟩
  refine Scanner.bind_eq_some_iff.mpr ⟨(), _, blanks, ?_⟩
  refine Scanner.bind_eq_some_iff.mpr ⟨opening, _, Scanner.one_eq_some_iff.mpr ⟨rfl, opens.1⟩, ?_⟩
  refine Scanner.bind_eq_some_iff.mpr ⟨name, _, read, ?_⟩
  refine Scanner.bind_eq_some_iff.mpr ⟨closing, t, Scanner.one_eq_some_iff.mpr ⟨rfl, closes.1⟩, ?_⟩
  rw [includable.trimmed]
  rfl

/-- An include stands on one line. -/
theorem IsInclude.single (written : IsInclude name directive) (includable : Includable name)
    : '\n' ∉ directive := by
  obtain ⟨indented, apart, spaced, encloses⟩ := written
  have noFeed {space : List Char} (spaced : IsGap space) : '\n' ∉ space := fun member =>
    absurd (spaced _ member) (by decide)
  simp only [List.mem_append, List.mem_cons, not_or]
  refine ⟨noFeed indented, by decide, noFeed apart, by decide, noFeed spaced, ?_, includable.single,
    ?_, List.not_mem_nil⟩
  · rcases encloses with ⟨rfl, -⟩ | ⟨rfl, -⟩ <;> decide
  · rcases encloses with ⟨-, rfl⟩ | ⟨-, rfl⟩ <;> decide

theorem IsInclude.hash_mem (written : IsInclude name directive) : '#' ∈ directive := by
  obtain ⟨-, -, -, -⟩ := written
  simp

theorem IsInclude.filled (written : IsInclude name directive) : directive ≠ [] :=
  List.ne_nil_of_mem written.hash_mem

/-- The line that includes a header, without its end. -/
def includeOf (name : List Char) : List Char :=
  "#include <".toList ++ (name ++ ['>'])

theorem includeOf_eq (name : List Char)
    : includeOf name = "#include <".toList ++ (name ++ ['>']) :=
  rfl

theorem isInclude_includeOf (name : List Char) : IsInclude name (includeOf name) := by
  have nothing : IsGap [] := nofun
  have space : IsGap [' '] := by simp [IsGap]
  exact .written nothing nothing space (.inl ⟨rfl, rfl⟩)

theorem toList_include (name : String)
    : ("#include <" ++ name ++ ">\n").toList = includeOf name.toList ++ ['\n'] := by
  rw [includeOf_eq]
  simp

end RangeTuner.Provenance
