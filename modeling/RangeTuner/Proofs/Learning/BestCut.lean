import Mathlib.Data.List.Sort
import Mathlib.Tactic.Linarith
import RangeTuner.Proofs.Learning.SquaredError

/-! The best cut, in exact arithmetic, against a search that tries every candidate and measures
both of its sides anew. One pass over sorted readings passes the targets of one side of every
candidate, so what it computes from running sums is what the candidate gains. Main statement: the
best cut is a candidate, with examples on both sides, and no candidate is clearly better; where
there is none, no candidate gains clearly.
-/

namespace RangeTuner.Learning.Grower

-----------------------------------------------------------------------------------------
-- Candidates
-----------------------------------------------------------------------------------------

section Candidates

variable {ε : Type} (grower : Grower ε ℚ) (examples : List ε) (feature : Nat) (threshold : ℚ)

/-- The readings of a column in ascending order. -/
def readings : List ℚ :=
  (examples.map (grower.reading · feature)).mergeSort

/-- A threshold halfway between two neighbours among the readings of a column, whose gap exceeds
the tolerance.
-/
def IsCandidate : Prop :=
  ∃ a b, [a, b] <:+: grower.readings examples feature
    ∧ 1 / 2 ^ 52 * max |a| 1 < b - a
    ∧ threshold = (a + b) / 2

/-- The examples whose readings do not exceed a threshold. -/
def below : List ε :=
  examples.filter fun e => grower.reading e feature ≤ threshold

/-- The examples whose readings exceed a threshold. -/
def above : List ε :=
  examples.filter fun e => threshold < grower.reading e feature

/-- By how much dividing the examples at a threshold lessens their squared errors. -/
def reduction : ℚ :=
  squaredError (examples.map grower.target)
    - squaredError ((grower.below examples feature threshold).map grower.target)
    - squaredError ((grower.above examples feature threshold).map grower.target)

end Candidates

@[simp] theorem margin_rat : (margin : ℚ) = 1 / 10 ^ 12 := by
  simp [margin, Scalar.ofDecimal]

theorem tooClose_rat (a b : ℚ)
    : tooClose a b = decide (b - a ≤ 1 / 2 ^ 52 * max |a| 1) := by
  simp only [tooClose, Scalar.le_rat, Scalar.one_rat, Scalar.ofNat_rat, Scalar.max_rat,
    Scalar.abs_rat]
  norm_num

-----------------------------------------------------------------------------------------
-- The better of many cuts
-----------------------------------------------------------------------------------------

/-- Keeps a cut unless a later one is clearly better. -/
def keep (best : Option (Cut ℚ)) (cut : Cut ℚ) : Option (Cut ℚ) :=
  match best with
  | none => some cut
  | some old => if old.gain + 1 / 10 ^ 12 < cut.gain then some cut else some old

/-- Keeping always keeps a cut, the one before or the new one, and neither is clearly better. -/
theorem exists_keep (best : Option (Cut ℚ)) (cut : Cut ℚ)
    : ∃ next, keep best cut = some next
      ∧ (next = cut ∨ best = some next)
      ∧ (∀ old, best = some old → old.gain ≤ next.gain)
      ∧ cut.gain ≤ next.gain + 1 / 10 ^ 12 := by
  cases best with
  | none => exact ⟨cut, rfl, .inl rfl, nofun, by linarith⟩
  | some old =>
      by_cases better : old.gain + 1 / 10 ^ 12 < cut.gain
      · refine ⟨cut, if_pos better, .inl rfl, ?_, by linarith⟩
        rintro _ ⟨⟩
        linarith
      · refine ⟨old, if_neg better, .inr rfl, ?_, not_lt.mp better⟩
        rintro _ ⟨⟩
        exact le_rfl

/-- Of many cuts one is kept and none is clearly better, by induction on the cuts: what is kept
never gets worse, and a cut that is passed over is not clearly better than what is kept then.
-/
theorem foldl_keep_eq_some {cuts : List (Cut ℚ)} {best : Option (Cut ℚ)} {kept : Cut ℚ}
    (came : cuts.foldl keep best = some kept)
    : (kept ∈ cuts ∨ best = some kept)
      ∧ (∀ old, best = some old → old.gain ≤ kept.gain)
      ∧ ∀ cut ∈ cuts, cut.gain ≤ kept.gain + 1 / 10 ^ 12 := by
  induction cuts generalizing best with
  | nil =>
      obtain rfl : best = some kept := came
      exact ⟨.inr rfl, by simp, by simp⟩
  | cons cut rest ih =>
      obtain ⟨next, now, origin, grows, near⟩ := exists_keep best cut
      rw [List.foldl_cons, now] at came
      obtain ⟨later, better, passed⟩ := ih came
      have most := better next rfl
      refine ⟨?_, fun old before => (grows old before).trans most, ?_⟩
      · rcases later with later | here
        · exact .inl (List.mem_cons_of_mem cut later)
        · obtain rfl := Option.some.inj here
          exact origin.imp_left fun new => List.mem_cons.mpr (.inl new)
      · exact List.forall_mem_cons.mpr ⟨by linarith, passed⟩

/-- Nothing is kept of no cuts only. -/
theorem foldl_keep_eq_none {cuts : List (Cut ℚ)} {best : Option (Cut ℚ)}
    (came : cuts.foldl keep best = none)
    : cuts = [] := by
  induction cuts generalizing best with
  | nil => rfl
  | cons cut rest ih =>
      obtain ⟨next, now, -⟩ := exists_keep best cut
      rw [List.foldl_cons, now] at came
      obtain rfl := ih came
      cases came

-----------------------------------------------------------------------------------------
-- One pass over sorted readings
-----------------------------------------------------------------------------------------

/-- By how much dividing readings with targets lessens the squared errors of the targets. -/
def division (left right : List (ℚ × ℚ)) : ℚ :=
  squaredError ((left ++ right).map Prod.snd) - squaredError (left.map Prod.snd)
    - squaredError (right.map Prod.snd)

/-- The cuts between neighbours that are not too close, with what was passed in front of them. -/
def cutsFrom (feature : Nat) : (passed : List (ℚ × ℚ)) → List (ℚ × ℚ) → List (Cut ℚ)
  | passed, (a, y) :: (b, z) :: rest =>
      let left := passed ++ [(a, y)]
      let right := (b, z) :: rest
      (if tooClose a b then [] else [⟨division left right, feature, (a + b) / 2⟩])
        ++ cutsFrom feature left right
  | _, _ => []

/-- What a division gains is known from the moments of all targets and of the left ones. -/
theorem division_eq (left right : List (ℚ × ℚ)) {all : Moments ℚ} {sum squares : ℚ}
    (moments : all = .ofList ((left ++ right).map Prod.snd))
    (passed : sum = (left.map Prod.snd).sum)
    (passedSquares : squares = ((left.map Prod.snd).map fun y => y * y).sum)
    : division left right
      = all.error - (squares - sum * sum / left.length)
        - ((all.squares - squares)
          - (all.sum - sum) * (all.sum - sum) / (all.count - left.length)) := by
  have others : all.sum - sum = (right.map Prod.snd).sum := by
    simp [moments, passed, Moments.ofList]
  have otherSquares
      : all.squares - squares = ((right.map Prod.snd).map fun y => y * y).sum := by
    simp [moments, passedSquares, Moments.ofList]
  have count : all.count - left.length = right.length := by
    simp [moments, Moments.ofList]
  rw [others, otherSquares, count, passed, passedSquares, moments, Moments.error_ofList,
    division, squaredError_eq (left.map Prod.snd), squaredError_eq (right.map Prod.snd),
    List.length_map, List.length_map]

/-- Where the running sums measure what was passed, a cut is computed with what it gains. -/
theorem consider_eq_foldl (feature : Nat) (left right : List (ℚ × ℚ)) (best : Option (Cut ℚ))
    (a b : ℚ) {all : Moments ℚ} {sum squares : ℚ}
    (moments : all = .ofList ((left ++ right).map Prod.snd))
    (passed : sum = (left.map Prod.snd).sum)
    (passedSquares : squares = ((left.map Prod.snd).map fun y => y * y).sum)
    : consider feature all left.length sum squares best a b
      = (if tooClose a b then [] else [⟨division left right, feature, (a + b) / 2⟩]).foldl keep
          best := by
  unfold consider
  split
  · rfl
  · rw [division_eq left right moments passed passedSquares]
    simp only [List.foldl_cons, List.foldl_nil, Scalar.ofNat_rat, Nat.cast_ofNat, Scalar.lt_rat,
      margin_rat]
    cases best with
    | none => rfl
    | some old =>
        simp only [keep, decide_eq_true_eq]

/-- One pass keeps the best of the cuts between neighbours, by induction on what is ahead. -/
theorem scan_eq_foldl (feature : Nat) (passed entries : List (ℚ × ℚ)) (best : Option (Cut ℚ))
    {all : Moments ℚ} {sum squares : ℚ}
    (moments : all = .ofList ((passed ++ entries).map Prod.snd))
    (sums : sum = (passed.map Prod.snd).sum)
    (squareSums : squares = ((passed.map Prod.snd).map fun y => y * y).sum)
    : scan feature all passed.length sum squares best entries
      = (cutsFrom feature passed entries).foldl keep best := by
  induction entries generalizing passed best sum squares with
  | nil => rfl
  | cons entry rest ih =>
      obtain ⟨a, y⟩ := entry
      cases rest with
      | nil => rfl
      | cons next rest =>
          obtain ⟨b, z⟩ := next
          have count : passed.length + 1 = (passed ++ [(a, y)]).length := by simp
          have behind : all = .ofList ((passed ++ [(a, y)] ++ (b, z) :: rest).map Prod.snd) := by
            simpa using moments
          have sumBehind : sum + y = ((passed ++ [(a, y)]).map Prod.snd).sum := by
            simp [sums]
          have squaresBehind : squares + y * y
              = (((passed ++ [(a, y)]).map Prod.snd).map fun y => y * y).sum := by
            simp [squareSums]
          rw [scan, cutsFrom, List.foldl_append, count,
            ← consider_eq_foldl feature _ _ best a b behind sumBehind squaresBehind]
          exact ih _ _ behind sumBehind squaresBehind

/-- The cuts between neighbours are those of the ways to divide a list between two neighbours. -/
theorem mem_cutsFrom {feature : Nat} {passed entries : List (ℚ × ℚ)} {cut : Cut ℚ}
    : cut ∈ cutsFrom feature passed entries
      ↔ ∃ before a y b z rest, entries = before ++ (a, y) :: (b, z) :: rest
        ∧ tooClose a b = false
        ∧ cut = ⟨division (passed ++ before ++ [(a, y)]) ((b, z) :: rest), feature, (a + b) / 2⟩
          := by
  induction entries generalizing passed with
  | nil => simp [cutsFrom]
  | cons entry rest ih =>
      obtain ⟨a, y⟩ := entry
      cases rest with
      | nil =>
          simp only [cutsFrom, List.not_mem_nil, false_iff]
          rintro ⟨before, _, _, _, _, rest, entries, -⟩
          have length := congrArg List.length entries
          simp at length
          omega
      | cons next rest =>
          obtain ⟨b, z⟩ := next
          rw [cutsFrom, List.mem_append, ih]
          constructor
          · rintro (here | ⟨before, c, u, d, v, others, entries, apart, same⟩)
            · split at here
              · cases here
              · refine ⟨[], a, y, b, z, rest, rfl, ?_, ?_⟩
                · exact Bool.eq_false_iff.mpr ‹_›
                · simpa using here
            · refine ⟨(a, y) :: before, c, u, d, v, others, ?_, apart, ?_⟩
              · rw [entries, List.cons_append]
              · simpa using same
          · rintro ⟨before, c, u, d, v, others, entries, apart, same⟩
            cases before with
            | nil =>
                cases entries
                exact .inl (by simp [apart, same])
            | cons first before =>
                obtain ⟨rfl, later⟩ := List.cons_eq_cons.mp entries
                exact .inr ⟨before, c, u, d, v, others, later, apart, by simpa using same⟩

-----------------------------------------------------------------------------------------
-- Sides of a threshold
-----------------------------------------------------------------------------------------

variable {ε : Type} {grower : Grower ε ℚ} {examples : List ε} {feature : Nat}

/-- Of sorted readings, those in front of a gap do not exceed its middle and the others do. -/
theorem filter_of_gap {before rest : List (ℚ × ℚ)} {a y b z : ℚ} (gap : a < b)
    (sorted : (before ++ (a, y) :: (b, z) :: rest).Pairwise fun p q => p.1 ≤ q.1)
    : ((before ++ (a, y) :: (b, z) :: rest).filter fun p => p.1 ≤ (a + b) / 2)
        = before ++ [(a, y)]
      ∧ ((before ++ (a, y) :: (b, z) :: rest).filter fun p => (a + b) / 2 < p.1)
        = (b, z) :: rest := by
  obtain ⟨-, behind, across⟩ := List.pairwise_append.mp sorted
  obtain ⟨-, behind⟩ := List.pairwise_cons.mp behind
  have low : ∀ p ∈ before ++ [(a, y)], p.1 ≤ (a + b) / 2 := by
    intro p member
    have most : p.1 ≤ a := by
      rcases List.mem_append.mp member with inFront | last
      · exact across p inFront (a, y) List.mem_cons_self
      · rw [List.mem_singleton.mp last]
    linarith
  have high : ∀ p ∈ (b, z) :: rest, (a + b) / 2 < p.1 := by
    intro p member
    have least : b ≤ p.1 := by
      rcases List.mem_cons.mp member with rfl | later
      · exact le_rfl
      · exact (List.pairwise_cons.mp behind).1 p later
    linarith
  have parts : before ++ (a, y) :: (b, z) :: rest = (before ++ [(a, y)]) ++ (b, z) :: rest := by
    simp
  rw [parts]
  constructor
  · rw [List.filter_append, List.filter_eq_self.mpr fun p member => decide_eq_true (low p member),
      List.filter_eq_nil_iff.mpr fun p member => by simpa using high p member, List.append_nil]
  · rw [List.filter_append, List.filter_eq_self.mpr fun p member => decide_eq_true (high p member),
      List.filter_eq_nil_iff.mpr fun p member => by simpa using low p member, List.nil_append]

theorem ordered_perm (grower : Grower ε ℚ) (examples : List ε) (feature : Nat)
    : (grower.ordered examples feature).Perm
        (examples.map fun e => (grower.reading e feature, grower.target e)) :=
  List.mergeSort_perm _ _

theorem ordered_sorted (grower : Grower ε ℚ) (examples : List ε) (feature : Nat)
    : (grower.ordered examples feature).Pairwise fun p q => p.1 ≤ q.1 := by
  have transitive : ∀ p q r : ℚ × ℚ, Scalar.before p.1 q.1 → Scalar.before q.1 r.1
      → Scalar.before p.1 r.1 := by
    simpa using fun a b c first second => le_trans first second
  have total : ∀ p q : ℚ × ℚ, Scalar.before p.1 q.1 || Scalar.before q.1 p.1 := by
    simpa using fun a b => le_total a b
  exact (List.pairwise_mergeSort transitive total _).imp fun before => by simpa using before

theorem readings_eq
    : grower.readings examples feature = (grower.ordered examples feature).map Prod.fst := by
  have keyed : ∀ p ∈ examples.map (fun e => (grower.reading e feature, grower.target e)),
      ∀ q ∈ examples.map (fun e => (grower.reading e feature, grower.target e)),
      Scalar.before p.1 q.1 = decide (p.1 ≤ q.1) := fun _ _ _ _ => rfl
  rw [ordered, List.map_mergeSort (s := fun a b => decide (a ≤ b)) keyed, List.map_map]
  rfl

/-- The entries with some readings are those of the examples with these readings. -/
theorem filter_ordered_perm (picks : ℚ → Bool)
    : ((grower.ordered examples feature).filter fun p => picks p.1).Perm
        ((examples.filter fun e => picks (grower.reading e feature)).map fun e =>
          (grower.reading e feature, grower.target e)) := by
  have filtered := (ordered_perm grower examples feature).filter fun p => picks p.1
  rwa [List.filter_map] at filtered

/-- What one pass takes for the gain at a gap is what dividing the examples there gains, and there
are examples on both sides.
-/
theorem reduction_of_gap {before rest : List (ℚ × ℚ)} {a y b z : ℚ} (gap : a < b)
    (entries : grower.ordered examples feature = before ++ (a, y) :: (b, z) :: rest)
    : grower.reduction examples feature ((a + b) / 2)
        = division (before ++ [(a, y)]) ((b, z) :: rest)
      ∧ grower.below examples feature ((a + b) / 2) ≠ []
      ∧ grower.above examples feature ((a + b) / 2) ≠ [] := by
  let entry : ε → ℚ × ℚ := fun e => (grower.reading e feature, grower.target e)
  obtain ⟨low, high⟩ := filter_of_gap gap (entries ▸ ordered_sorted grower examples feature)
  have left : (before ++ [(a, y)]).Perm
      ((grower.below examples feature ((a + b) / 2)).map entry) := by
    rw [← low, ← entries]
    exact filter_ordered_perm fun x => x ≤ (a + b) / 2
  have right : ((b, z) :: rest).Perm
      ((grower.above examples feature ((a + b) / 2)).map entry) := by
    rw [← high, ← entries]
    exact filter_ordered_perm fun x => (a + b) / 2 < x
  have whole : (before ++ [(a, y)] ++ (b, z) :: rest).Perm (examples.map entry) := by
    have same : before ++ [(a, y)] ++ (b, z) :: rest = grower.ordered examples feature := by
      simp [entries]
    rw [same]
    exact ordered_perm grower examples feature
  have targets : ∀ {xs : List (ℚ × ℚ)} {es : List ε}, xs.Perm (es.map entry)
      → squaredError (es.map grower.target) = squaredError (xs.map Prod.snd) := by
    intro xs es same
    have mapped := same.map Prod.snd
    rw [List.map_map] at mapped
    exact (squaredError_perm mapped).symm
  refine ⟨?_, ?_, ?_⟩
  · rw [reduction, division, targets whole, targets left, targets right]
  · intro none
    simp [none] at left
  · intro none
    simp [none] at right

/-- Neighbours among the readings are neighbours among the entries. -/
theorem isCandidate_iff {threshold : ℚ}
    : grower.IsCandidate examples feature threshold
      ↔ ∃ before a y b z rest,
        grower.ordered examples feature = before ++ (a, y) :: (b, z) :: rest
        ∧ tooClose a b = false
        ∧ threshold = (a + b) / 2 := by
  have apart : ∀ a b : ℚ, tooClose a b = false ↔ 1 / 2 ^ 52 * max |a| 1 < b - a := by
    intro a b
    rw [tooClose_rat, decide_eq_false_iff_not, not_le]
  simp only [IsCandidate, readings_eq, apart]
  constructor
  · rintro ⟨a, b, ⟨front, back, neighbours⟩, gap, rfl⟩
    rw [List.append_assoc, eq_comm, List.map_eq_append_iff] at neighbours
    obtain ⟨before, behind, entries, -, neighbours⟩ := neighbours
    obtain ⟨first, others, rfl, rfl, later⟩ := List.map_eq_cons_iff.mp neighbours
    obtain ⟨second, rest, rfl, rfl, -⟩ := List.map_eq_cons_iff.mp later
    exact ⟨before, first.1, first.2, second.1, second.2, rest, entries, gap, rfl⟩
  · rintro ⟨before, a, y, b, z, rest, entries, gap, rfl⟩
    exact ⟨a, b, ⟨before.map Prod.fst, rest.map Prod.fst, by simp [entries]⟩, gap, rfl⟩

/-- Readings that are not too close are different. -/
theorem lt_of_apart {a b : ℚ} (apart : tooClose a b = false)
    : a < b := by
  rw [tooClose_rat, decide_eq_false_iff_not, not_le] at apart
  have tolerance : (0 : ℚ) < 1 / 2 ^ 52 * max |a| 1 := by positivity
  linarith

/-- A cut of one pass is a candidate with examples on both sides, and gains what they do. -/
theorem candidate_of_mem_cutsFrom {cut : Cut ℚ}
    (member : cut ∈ cutsFrom feature [] (grower.ordered examples feature))
    : cut.feature = feature
      ∧ grower.IsCandidate examples feature cut.threshold
      ∧ grower.below examples feature cut.threshold ≠ []
      ∧ grower.above examples feature cut.threshold ≠ []
      ∧ cut.gain = grower.reduction examples feature cut.threshold := by
  obtain ⟨before, a, y, b, z, rest, entries, apart, rfl⟩ := mem_cutsFrom.mp member
  obtain ⟨gain, low, high⟩ := reduction_of_gap (lt_of_apart apart) entries
  exact ⟨rfl, isCandidate_iff.mpr ⟨before, a, y, b, z, rest, entries, apart, rfl⟩, low, high,
    gain.symm⟩

/-- Every candidate is a cut of one pass. -/
theorem exists_cut_of_candidate {threshold : ℚ}
    (candidate : grower.IsCandidate examples feature threshold)
    : ∃ cut ∈ cutsFrom feature [] (grower.ordered examples feature),
        cut.gain = grower.reduction examples feature threshold := by
  obtain ⟨before, a, y, b, z, rest, entries, apart, rfl⟩ := isCandidate_iff.mp candidate
  refine ⟨⟨division (before ++ [(a, y)]) ((b, z) :: rest), feature, (a + b) / 2⟩,
    mem_cutsFrom.mpr ⟨before, a, y, b, z, rest, entries, apart, rfl⟩, ?_⟩
  exact (reduction_of_gap (lt_of_apart apart) entries).1.symm

-----------------------------------------------------------------------------------------
-- All columns
-----------------------------------------------------------------------------------------

/-- The cuts of all columns that are searched. -/
def cuts (grower : Grower ε ℚ) (examples : List ε) (features : List Nat) : List (Cut ℚ) :=
  features.flatMap fun feature => cutsFrom feature [] (grower.ordered examples feature)

/-- The best cut is the best of the cuts of all columns, if it gains enough. -/
theorem bestCut?_eq (features : List Nat)
    : grower.bestCut? examples features
      = ((grower.cuts examples features).foldl keep none).filter fun cut =>
          1 / 10 ^ 12 < cut.gain := by
  have column : ∀ (best : Option (Cut ℚ)) (feature : Nat),
      scan feature (.ofList (examples.map grower.target)) 0 Scalar.zero Scalar.zero best
          (grower.ordered examples feature)
        = (cutsFrom feature [] (grower.ordered examples feature)).foldl keep best := by
    intro best feature
    have perm := (ordered_perm grower examples feature).map Prod.snd
    rw [List.map_map] at perm
    exact scan_eq_foldl feature [] _ best (Moments.ofList_perm perm.symm) Scalar.zero_rat
      Scalar.zero_rat
  simp only [bestCut?, column, cuts, List.foldl_flatMap, Scalar.lt_rat, margin_rat]

/-- Main statement: the best cut of some columns, in exact arithmetic, is a candidate of one of
them with examples on both sides. What it gains, measured anew on the two sides, exceeds the
margin, and no candidate of any of the columns gains more by over the margin. Where there is no
best cut, no candidate gains more than twice the margin.
-/
theorem bestCut?_near_best (grower : Grower ε ℚ) (examples : List ε) (features : List Nat)
    : (∀ cut, grower.bestCut? examples features = some cut
        → cut.feature ∈ features
          ∧ grower.IsCandidate examples cut.feature cut.threshold
          ∧ grower.below examples cut.feature cut.threshold ≠ []
          ∧ grower.above examples cut.feature cut.threshold ≠ []
          ∧ 1 / 10 ^ 12 < grower.reduction examples cut.feature cut.threshold
          ∧ ∀ feature ∈ features, ∀ threshold, grower.IsCandidate examples feature threshold
            → grower.reduction examples feature threshold
              ≤ grower.reduction examples cut.feature cut.threshold + 1 / 10 ^ 12)
      ∧ (grower.bestCut? examples features = none
        → ∀ feature ∈ features, ∀ threshold, grower.IsCandidate examples feature threshold
          → grower.reduction examples feature threshold ≤ 2 / 10 ^ 12) := by
  have searched : ∀ feature ∈ features, ∀ threshold,
      grower.IsCandidate examples feature threshold
      → ∃ cut ∈ grower.cuts examples features,
        cut.gain = grower.reduction examples feature threshold := by
    intro feature member threshold candidate
    obtain ⟨cut, here, gain⟩ := exists_cut_of_candidate candidate
    exact ⟨cut, List.mem_flatMap.mpr ⟨feature, member, here⟩, gain⟩
  constructor
  · intro cut best
    rw [bestCut?_eq, Option.filter_eq_some_iff] at best
    obtain ⟨kept, enough⟩ := best
    obtain ⟨origin, -, most⟩ := foldl_keep_eq_some kept
    obtain ⟨feature, member, here⟩ := List.mem_flatMap.mp (origin.resolve_right nofun)
    obtain ⟨rfl, candidate, low, high, gain⟩ := candidate_of_mem_cutsFrom here
    rw [← gain]
    refine ⟨member, candidate, low, high, by simpa using enough, ?_⟩
    intro feature member threshold candidate
    obtain ⟨other, listed, same⟩ := searched feature member threshold candidate
    rw [← same]
    exact most other listed
  · intro none feature member threshold candidate
    obtain ⟨other, listed, same⟩ := searched feature member threshold candidate
    rw [← same]
    rw [bestCut?_eq, Option.filter_eq_none_iff] at none
    cases kept : (grower.cuts examples features).foldl keep Option.none with
    | none =>
        rw [foldl_keep_eq_none kept] at listed
        cases listed
    | some cut =>
        obtain ⟨-, -, most⟩ := foldl_keep_eq_some kept
        have little : cut.gain ≤ 1 / 10 ^ 12 := by simpa using none cut kept
        have near := most other listed
        linarith

/-- Readings with targets, in one column. -/
def pairGrower : Grower (ℚ × ℚ) ℚ where
  reading e _ := e.1
  target e := e.2
  minSplit := 2
  columns := return [0]
  leaf _ := 0

/-- Equal readings stay on one side of the cut between two steps, which no candidate beats. -/
theorem steps_near_best
    : ∃ cut, pairGrower.bestCut? [(0, 0), (0, 1), (1, 5), (1, 6)] [0] = some cut
      ∧ cut.threshold = 1 / 2
      ∧ (pairGrower.below [(0, 0), (0, 1), (1, 5), (1, 6)] 0 (1 / 2)).length = 2
      ∧ ∀ threshold, pairGrower.IsCandidate [(0, 0), (0, 1), (1, 5), (1, 6)] 0 threshold
        → pairGrower.reduction [(0, 0), (0, 1), (1, 5), (1, 6)] 0 threshold
          ≤ pairGrower.reduction [(0, 0), (0, 1), (1, 5), (1, 6)] 0 (1 / 2) + 1 / 10 ^ 12 := by
  have sorted : pairGrower.ordered [(0, 0), (0, 1), (1, 5), (1, 6)] 0
      = [(0, 0), (0, 1), (1, 5), (1, 6)] :=
    List.mergeSort_of_pairwise (by decide +kernel)
  have best : pairGrower.bestCut? [(0, 0), (0, 1), (1, 5), (1, 6)] [0]
      = some ⟨25, 0, 1 / 2⟩ := by
    rw [bestCut?, List.foldl_cons, sorted]
    with_unfolding_all rfl
  obtain ⟨-, -, -, -, -, most⟩ := (bestCut?_near_best pairGrower _ _).1 _ best
  exact ⟨_, best, rfl, by decide +kernel, most 0 List.mem_cons_self⟩

end RangeTuner.Learning.Grower
