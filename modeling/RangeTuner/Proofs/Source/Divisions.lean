import RangeTuner.Proofs.Text.OpenComments
import RangeTuner.Proofs.Text.Scanning

/-! Slashes of cleaned texts. A comment is left out without a trace, so the characters around it
come together, but no slash stands right before a comment: it would open a line comment. Main
statement: a cleaned text has no line comment, and an open block comment only from one that the
text leaves open, so that in the features of a source every slash of its code is a division.
-/

namespace RangeTuner.Text

variable {s : List Char}

-----------------------------------------------------------------------------------------
-- Openings of comments in cleaned texts
-----------------------------------------------------------------------------------------

/-- Two slashes do not come together when comments are left out, by induction on the lexemes. -/
theorem clean_opens_no_lineComment (s : List Char) : ¬ ['/', '/'] <:+: clean s := by
  induction s using Lexeme.source_induction with
  | nil => simp [clean_nil]
  | code c s code ih =>
      rw [clean_cons code, List.infix_cons_iff]
      rintro (⟨rest, same⟩ | later)
      · obtain ⟨rfl, second⟩ := List.cons.inj same
        have apart : s.head? ≠ some '/' := (Lexeme.of_scan_cons code).2 rfl
        have first : (clean s).head? = some '/' := by rw [← second]; rfl
        rw [head?_clean apart] at first
        exact apart first
      · exact ih later
  | lexeme kind lexeme rest formed ih =>
      rw [clean_append formed]
      exact fun within => ih (infix_of_append_left formed.slash_not_mem_remnant within)

/-- A block comment that a cleaned text opens is opened in the text and not closed behind, by
induction on the lexemes.
-/
theorem exists_open_of_clean (opened : ['/', '*'] <:+: clean s)
    : ∃ before after, s = before ++ '/' :: '*' :: after ∧ EndsNoComment after := by
  induction s using Lexeme.source_induction with
  | nil => simp [clean_nil] at opened
  | code c s code ih =>
      by_cases opens : ['/', '*'] <+: c :: s
      · -- the comment would be a lexeme if it were closed
        obtain ⟨after, same⟩ := opens
        rw [← same] at code ⊢
        exact ⟨[], after, rfl, endsNoComment_of_scan code⟩
      · obtain ⟨before, after, rfl, unended⟩ := ih (infix_clean_of_cons code opens opened)
        exact ⟨c :: before, after, rfl, unended⟩
  | lexeme kind lexeme rest formed ih =>
      rw [clean_append formed] at opened
      obtain ⟨before, after, rfl, unended⟩ :=
        ih (infix_of_append_left formed.slash_not_mem_remnant opened)
      exact ⟨lexeme ++ before, after, by simp, unended⟩

end RangeTuner.Text

namespace RangeTuner.Source

open RangeTuner.Text

-----------------------------------------------------------------------------------------
-- Divisions
-----------------------------------------------------------------------------------------

namespace Sign

theorem division_scan_of_ne {c : Char} (other : c ≠ '/') (s : List Char)
    : division.scan (c :: s) = none := by
  refine Option.eq_none_iff_forall_ne_some.mpr fun ⟨found, rest⟩ scanned => ?_
  obtain ⟨_, _, first, -⟩ := Scanner.bind_eq_some_iff.mp scanned
  exact other (List.cons.inj (Scanner.literal_eq_some_iff.mp first)).1

/-- A slash is taken with the character behind it. -/
theorem division_scan_cons {d : Char} (slash : d ≠ '/') (star : d ≠ '*') (s : List Char)
    : division.scan ('/' :: d :: s) = some ((), s) := by
  have other : (decide (d ≠ '/') && decide (d ≠ '*')) = true := by simp [slash, star]
  refine Scanner.bind_eq_some_iff.mpr ⟨(), d :: s, rfl, Scanner.orElse_eq_some_iff.mpr (.inr ?_)⟩
  refine ⟨rfl, Scanner.bind_eq_some_iff.mpr ⟨d, s, ?_, rfl⟩⟩
  exact Scanner.one_eq_some_iff.mpr ⟨rfl, other⟩

/-- Where no comment opens, every slash is a division: the character that is taken with it is no
slash. By induction over the text, two characters at a time behind a slash.
-/
theorem count_division {s : List Char} (line : ¬ ['/', '/'] <:+: s) (block : ¬ ['/', '*'] <:+: s)
    : division.count s = s.count '/' := by
  have apart : ∀ {c : Char} {s : List Char}, c ≠ '/'
      → division.count (c :: s) = division.count s := by
    intro c s other
    have cut : division.pieces (c :: s) = .plain c :: division.pieces s :=
      Idiom.pieces_cons_of_scan rfl (division_scan_of_ne other s)
    rw [Idiom.count, Idiom.findAll, cut]
    rfl
  induction s using List.twoStepInduction with
  | nil => rfl
  | singleton c =>
      by_cases other : c = '/'
      · rw [other]
        rfl
      · rw [apart other, List.count_cons_of_ne other]
        rfl
  | cons_cons c d s behind next =>
      have line' : ¬ ['/', '/'] <:+: d :: s := fun within => line (List.infix_cons within)
      have block' : ¬ ['/', '*'] <:+: d :: s := fun within => block (List.infix_cons within)
      by_cases other : c = '/'
      · subst other
        have slash : d ≠ '/' := by
          rintro rfl
          exact line ⟨[], s, rfl⟩
        have star : d ≠ '*' := by
          rintro rfl
          exact block ⟨[], s, rfl⟩
        have cut : division.pieces ('/' :: d :: s) = .hit () ['/', d] :: division.pieces s :=
          Idiom.pieces_append_of_scan rfl (List.cons_ne_nil '/' [d])
            (division_scan_cons slash star s)
        have one : division.count ('/' :: d :: s) = division.count s + 1 := by
          rw [Idiom.count, Idiom.findAll, cut]
          rfl
        rw [one, behind (fun within => line' (List.infix_cons within))
            fun within => block' (List.infix_cons within),
          List.count_cons_self, List.count_cons_of_ne slash]
      · rw [apart other, next d line' block', List.count_cons_of_ne other]

end Sign

-----------------------------------------------------------------------------------------
-- Counts as features
-----------------------------------------------------------------------------------------

namespace Features

variable {features : Features} {other : String}

theorem get?_insert_of_ne {name : String} (apart : name ≠ other) (figure : Float)
    : (features.insert name figure).values.get? other = features.values.get? other :=
  (Figures.get?_insert ..).trans (if_neg apart)

theorem get?_insertCount (features : Features) (name other : String) (count : Nat)
    : (features.insertCount name count).values.get? other
      = if perLineOf name = other then some (features.perLine count)
        else if name = other then some count.toFloat
        else features.values.get? other := by
  rw [← Figures.get?_insert, ← Figures.get?_insert]
  rfl

/-- A count leaves the features with other names. -/
theorem get?_insertCount_of_ne {name : String} (apart : name ≠ other ∧ perLineOf name ≠ other)
    (count : Nat)
    : (features.insertCount name count).values.get? other = features.values.get? other := by
  rw [get?_insertCount, if_neg apart.2, if_neg apart.1]

/-- Counts leave the features with other names, by induction on them. -/
theorem get?_foldl_insertCount_of_ne {β : Type} {name : β → String} {count : β → Nat}
    {xs : List β} (apart : ∀ x ∈ xs, name x ≠ other ∧ perLineOf (name x) ≠ other)
    : (xs.foldl (fun features x => features.insertCount (name x) (count x)) features).values.get?
        other
      = features.values.get? other := by
  induction xs generalizing features with
  | nil => rfl
  | cons x xs ih =>
      rw [List.forall_mem_cons] at apart
      rw [List.foldl_cons, ih apart.2, get?_insertCount_of_ne apart.1]

theorem perLineOf_ne_feature (name : String) (category : Category)
    : perLineOf name ≠ category.feature := by
  intro same
  have ends := congrArg (fun text => text.toList.getLast?) same
  simp [perLineOf, Category.feature] at ends

/-- The features of a cleaned text that are no counts of categories. -/
def measures : List String :=
  ["cyclomatic_complexity", "max_nesting_depth", "function_count", "validation_functions"]
    ++ mathFunctions.map (· ++ "_calls")

/-- No two categories have the same feature, and no measure has the feature of a category. -/
theorem features_distinct
    : (Category.all.map Category.feature).Nodup
      ∧ ∀ feature ∈ Category.all.map Category.feature, feature ∉ measures := by
  decide +kernel

/-- A category's feature is its count in the cleaned text. -/
theorem get?_ofCleaned_category {category : Category} (member : category ∈ Category.all)
    (text : List Char)
    : (ofCleaned text).values.get? category.feature = some (category.count text).toFloat := by
  have unmeasured : ∀ name ∈ measures,
      name ≠ category.feature ∧ perLineOf name ≠ category.feature := by
    refine fun name measure => ⟨?_, perLineOf_ne_feature name category⟩
    rintro rfl
    exact features_distinct.2 _ (List.mem_map_of_mem member) measure
  obtain ⟨first, last, listed⟩ := List.append_of_mem member
  have later : ∀ x ∈ last,
      x.feature ≠ category.feature ∧ perLineOf x.feature ≠ category.feature := by
    refine fun x behind => ⟨fun same => ?_, perLineOf_ne_feature _ category⟩
    have distinct := features_distinct.1
    rw [listed, List.map_append, List.map_cons, List.nodup_append] at distinct
    exact (List.nodup_cons.mp distinct.2.1).1 (same ▸ List.mem_map_of_mem behind)
  have calls : ∀ name ∈ mathFunctions,
      name ++ "_calls" ≠ category.feature ∧ perLineOf (name ++ "_calls") ≠ category.feature :=
    fun name member => unmeasured _ (List.mem_append_right _ (List.mem_map_of_mem member))
  unfold ofCleaned
  -- the measures behind the counts of the categories
  rw [get?_insertCount_of_ne (unmeasured _ (by decide)), get?_foldl_insertCount_of_ne calls,
    get?_insertCount_of_ne (unmeasured _ (by decide)),
    get?_insert_of_ne (unmeasured _ (by decide)).1, get?_insert_of_ne (unmeasured _ (by decide)).1]
  rw [listed, List.foldl_append, List.foldl_cons, get?_foldl_insertCount_of_ne later,
    get?_insertCount, if_neg (perLineOf_ne_feature _ category), if_pos rfl]

end Features

/-- The category of divisions. -/
def divisions : Category :=
  ⟨"division_operations", [.division]⟩

/-- Main statement: cleaning glues no code into a comment. A cleaned text has no `//`, and has `/*`
only if the text has one that no `*/` closes; without one, the divisions among the features of a
source are the slashes of its cleaned text.
-/
theorem cleaning_opens_no_comment (text : List Char)
    : occurs "//".toList (clean text) = false
      ∧ (occurs "/*".toList (clean text) = true
        → ∃ before after, text = before ++ "/*".toList ++ after
          ∧ occurs "*/".toList after = false)
      ∧ (occurs "/*".toList (clean text) = false
        → (Features.extract text).values.get? "division_operations_count"
          = some ((clean text).count '/').toFloat) := by
  have line : ¬ ['/', '/'] <:+: clean text := clean_opens_no_lineComment text
  refine ⟨?_, fun opened => ?_, fun closed => ?_⟩
  · rw [← Bool.not_eq_true, occurs_iff_isInfix]
    exact line
  · obtain ⟨before, after, whole, unended⟩ :=
      exists_open_of_clean (occurs_iff_isInfix.mp opened)
    exact ⟨before, after, by simpa using whole, unended⟩
  · rw [← Bool.not_eq_true, occurs_iff_isInfix] at closed
    have counted : divisions.count (clean text) = (clean text).count '/' :=
      (Nat.zero_add _).trans (Sign.count_division line closed)
    have listed : divisions ∈ Category.all := by simp [Category.all, divisions]
    rw [← counted]
    exact Features.get?_ofCleaned_category listed (clean text)

/-- A text whose slashes stand around comments and a character. -/
def crowdedSlashes : List Char :=
  "a/b/*c*//d/'/'// /".toList

theorem divisions_of_crowdedSlashes
    : occurs "/*".toList (clean crowdedSlashes) = false
      ∧ (Features.extract crowdedSlashes).values.get? "division_operations_count"
        = some ((clean crowdedSlashes).count '/').toFloat := by
  have closed : occurs "/*".toList (clean crowdedSlashes) = false := by decide
  exact ⟨closed, (cleaning_opens_no_comment crowdedSlashes).2.2 closed⟩

end RangeTuner.Source
