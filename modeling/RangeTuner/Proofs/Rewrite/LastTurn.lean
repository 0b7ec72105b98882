import RangeTuner.Proofs.Rewrite.ConstantsText
import RangeTuner.Proofs.Rewrite.Run

/-! The last turn of a run is that of the zone constants. Main statements: the turns before it
leave a quiet beginning of the text and bring no title in, and neither does the last one.
-/

namespace RangeTuner.Rewrite

open RangeTuner.Spec RangeTuner.Text

variable {settings : Settings} {facts : Facts} {report : GateReport}

/-- The optimizations that get a turn before the zone constants. -/
def earlyTurns (report : GateReport) : List Optimization :=
  (turns report).takeWhile (· ≠ .zoneConstants)

/-- The zone constants are last. -/
theorem turns_eq_earlyTurns (report : GateReport)
    : turns report = earlyTurns report ++ [Optimization.zoneConstants].filter report.approves := by
  have split : turns report = (Optimization.all.take 5).filter report.approves
      ++ [Optimization.zoneConstants].filter report.approves :=
    List.filter_append (Optimization.all.take 5) [Optimization.zoneConstants]
  have others : ∀ optimization ∈ (Optimization.all.take 5).filter report.approves,
      decide (optimization ≠ .zoneConstants) = true := by
    intro optimization member
    have early := (List.mem_filter.mp member).1
    cases optimization <;> first | rfl | simp [Optimization.all] at early
  -- what is left of the turns starts with the zone constants, or there is nothing left
  have last : ([Optimization.zoneConstants].filter report.approves).takeWhile
      (fun optimization => decide (optimization ≠ .zoneConstants)) = [] := by
    cases approved : report.approves .zoneConstants <;> simp [approved]
  rw [earlyTurns, split, List.takeWhile_append_of_pos others, last, List.append_nil]

theorem zoneConstants_not_mem_earlyTurns (report : GateReport)
    : .zoneConstants ∉ earlyTurns report := fun member => by
  simpa using List.all_eq_true.mp List.all_takeWhile _ member

/-- A run ends with the turn of the zone constants, if they are approved. -/
theorem text_apply (text : List Char)
    : (apply settings facts report text).text
      = if report.approves .zoneConstants then
          transform settings facts .zoneConstants
            (textAtTurn settings facts report text .zoneConstants)
        else textAtTurn settings facts report text .zoneConstants := by
  have early : textAtTurn settings facts report text .zoneConstants
      = textAfter settings facts (earlyTurns report) text := rfl
  rw [apply_eq, early, turns_eq_earlyTurns]
  unfold textAfter
  rw [List.foldl_append]
  cases approved : report.approves .zoneConstants <;> simp [approved]

section

variable {optimizations : List Optimization} (others : .zoneConstants ∉ optimizations)
include others

/-- Templates other than that of the zone constants leave a quiet beginning. -/
theorem textAfter_append {s : List Char} (quiet : Quiet calm s) (t : List Char)
    : textAfter settings facts optimizations (s ++ t)
      = s ++ textAfter settings facts optimizations t := by
  induction optimizations generalizing t with
  | nil => rfl
  | cons first rest ih =>
      rw [List.mem_cons, not_or] at others
      rw [textAfter, List.foldl_cons, transform_append quiet (Ne.symm others.1)]
      exact ih others.2 _

/-- Templates other than that of the zone constants bring no title in. -/
theorem titles_textAfter {text : List Char} (untitled : titles text = 0)
    : titles (textAfter settings facts optimizations text) = 0 := by
  induction optimizations generalizing text with
  | nil => exact untitled
  | cons first rest ih =>
      rw [List.mem_cons, not_or] at others
      refine ih others.2 (titles_eq_zero_iff.mpr fun found => ?_)
      exact titles_eq_zero_iff.mp untitled
        ((transform_bringsNoTitle settings facts (Ne.symm others.1) text).hasLine found)

end

theorem textAtTurn_zoneConstants_append {s : List Char} (quiet : Quiet calm s) (t : List Char)
    : textAtTurn settings facts report (s ++ t) .zoneConstants
      = s ++ textAtTurn settings facts report t .zoneConstants :=
  textAfter_append (zoneConstants_not_mem_earlyTurns report) quiet t

theorem titles_textAtTurn_zoneConstants {text : List Char} (untitled : titles text = 0)
    : titles (textAtTurn settings facts report text .zoneConstants) = 0 :=
  titles_textAfter (zoneConstants_not_mem_earlyTurns report) untitled

theorem titles_transform_zoneConstants (text : List Char)
    : titles (transform settings facts .zoneConstants text) = titles text := by
  unfold transform
  split
  · exact ZoneConstants.titles_rewrite settings facts text
  · rfl

/-- A run brings no title in. -/
theorem titles_apply {text : List Char} (untitled : titles text = 0)
    : titles (apply settings facts report text).text = 0 := by
  have early : titles (textAtTurn settings facts report text .zoneConstants) = 0 :=
    titles_textAtTurn_zoneConstants untitled
  rw [text_apply]
  split
  · rw [titles_transform_zoneConstants, early]
  · exact early

end RangeTuner.Rewrite
