import RangeTuner.Proofs.Decimal.Nearest
import RangeTuner.Proofs.Learning.CheckedTraining

/-! Holding out rows. Rows are shuffled and cut in two, so every row is trained on or held out, and
none is both. Main statement: the rows held out are as many as the share of all rows, rounded, but
never all of them.
-/

namespace RangeTuner.Learning

open RangeTuner.Decimal

namespace Holdout

/-- Every one of so many rows is either trained on or held out, once. -/
structure Partitions (holdout : Holdout) (rows : Nat) : Prop where
  disjoint : holdout.training.Disjoint holdout.heldOut
  all : (holdout.training ++ holdout.heldOut).Perm (List.range rows)

/-- What is held out and what is trained on are the ends of the shuffled rows. -/
theorem draw_partitions (rows : Nat) (fraction : Float) (seed : UInt64)
    : (draw rows fraction seed).Partitions rows := by
  have shuffled := Draw.shuffle_perm (List.range rows) (.ofStream seed stream)
  have once := shuffled.nodup_iff.mpr List.nodup_range
  constructor
  · exact (List.disjoint_take_drop once (Nat.le_refl _)).symm
  · rw [← List.take_append_drop (size rows fraction) (Prod.fst _)] at shuffled
    exact List.perm_append_comm.trans shuffled

/-- There are rows enough to be held out. -/
theorem length_heldOut_draw (rows : Nat) (fraction : Float) (seed : UInt64)
    : (draw rows fraction seed).heldOut.length = size rows fraction := by
  have few := size_le rows fraction
  simp only [draw, List.length_take, Draw.length_shuffle_range]
  omega

/-- The size of a holdout is a share of the rows rounded, since no share of one takes more rows than
there are words.
-/
theorem exists_share {rows : Nat} {fraction : Float} (counted : rows < 2 ^ 64)
    (least : 0.0 ≤ fraction) (below : fraction < 1.0)
    : ∃ share, (Number.ofFloat (rows.toFloat * fraction)).value? = some share
      ∧ 0 ≤ share
      ∧ size rows fraction = min (round share).toNat (rows - 1) := by
  have moderate := upTo_mul (upTo_toFloat counted) (upTo_share least below) (by decide) (by decide)
  obtain ⟨share, value, positive⟩ := moderate.exists_value
  rw [← Number.ofFloat_eq] at value
  refine ⟨share, value, positive, ?_⟩
  rw [size, Number.nearestWord_eq value positive, greatestWord]
  omega

/-- Main statement: shuffling reads no place that is not there and keeps all items; and the rows
of a dataset are held out and trained on, each in one way, where the rows held out are the share
of all rows that was asked for, rounded, and one row at least is trained on.
-/
theorem shuffled_rows_are_split
    : (∀ {α : Type} (items : List α) (g : Generator), ∃ order next,
        (Checked.shuffle items).run g = .ok (order, next)
        ∧ (Draw.shuffle items).run g = (order, next)
        ∧ order.Perm items)
      ∧ ∀ rows fraction seed,
        Checked.drawHoldout rows fraction seed = .ok (draw rows fraction seed)
        ∧ (draw rows fraction seed).Partitions rows
        ∧ (1 ≤ rows → (draw rows fraction seed).training ≠ [])
        ∧ (rows < 2 ^ 64 → 0.0 ≤ fraction → fraction < 1.0 → ∃ share,
          (Number.ofFloat (rows.toFloat * fraction)).value? = some share
          ∧ 0 ≤ share
          ∧ (draw rows fraction seed).heldOut.length = min (round share).toNat (rows - 1)) := by
  constructor
  · intro α items g
    exact ⟨_, _, Checked.follows_shuffle items g, rfl, Draw.shuffle_perm items g⟩
  · intro rows fraction seed
    refine ⟨Checked.drawHoldout_eq_ok rows fraction seed, draw_partitions rows fraction seed,
      fun some_rows => (draw_splits some_rows fraction seed).training_ne_nil,
      fun counted least below => ?_⟩
    rw [length_heldOut_draw]
    exact exists_share counted least below

/-- A quarter of ten rows is two rows and a half, so three rows are held out. -/
theorem quarter_of_ten_rows
    : 1 ≤ 10 ∧ 10 < 2 ^ 64 ∧ (0.0 : Float) ≤ 0.25 ∧ (0.25 : Float) < 1.0
      ∧ (draw 10 0.25 42).training ≠ []
      ∧ (draw 10 0.25 42).heldOut.length = 3 := by
  have least : (0.0 : Float) ≤ 0.25 := by decide
  have below : (0.25 : Float) < 1.0 := by decide
  obtain ⟨-, -, training, held⟩ := shuffled_rows_are_split.2 10 0.25 42
  obtain ⟨share, value, -, length⟩ := held (by decide) least below
  have product : Number.ofFloat ((10 : Nat).toFloat * 0.25)
      = .finite false ⟨5629499534213120, -51⟩ := by
    decide
  obtain rfl : (⟨5629499534213120, -51⟩ : Binary).value = share := by
    rw [product] at value
    exact Option.some.inj value
  have rounded : round (⟨5629499534213120, -51⟩ : Binary).value = 3 := by
    norm_num [Binary.value, round_eq, Int.floor_eq_iff]
  refine ⟨by decide, by decide, least, below, training (by decide), ?_⟩
  rw [length, rounded]
  rfl

end Holdout

end RangeTuner.Learning
