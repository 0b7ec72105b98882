import RangeTuner.Proofs.Rewrite.ConstantsText
import RangeTuner.Proofs.Rewrite.RepeatedGuards
import RangeTuner.Proofs.Rewrite.RepeatedNarrowing

/-! Templates a second time. Narrowing leaves nothing to narrow, null guards are removed so that
none of them is left, and the zone constants are put in once. Main statement: these four templates
change nothing the second time, whatever the settings, the facts and the text.
-/

namespace RangeTuner.Rewrite

open RangeTuner.Text RangeTuner.Spec

-----------------------------------------------------------------------------------------
-- Null guards
-----------------------------------------------------------------------------------------

theorem replaceAll_of_absent {idioms : List (Idiom Unit)} {comment s : List Char}
    (absent : ∀ idiom ∈ idioms, idiom.occursIn s = false)
    : replaceAll idioms comment s = s := by
  induction idioms with
  | nil => rfl
  | cons idiom idioms ih =>
      rw [List.forall_mem_cons] at absent
      rw [replaceAll, List.foldl_cons, Idiom.replace_of_not_occursIn absent.1]
      exact ih absent.2

namespace NullGuards

open Guards

/-- The guards that are removed, as conditions and the words of their blocks. -/
def guards : List (Scanner Unit × List String) :=
  [(eitherNull, ["return"]), (equalsNull, ["return"]), (negatedWord, ["printf", "return"])]

theorem idioms_eq : idioms = guards.map fun guard => Guards.idiom guard.1 guard.2 :=
  rfl

theorem simple_guards : ∀ guard ∈ guards, Simple guard.1 := by
  have blank := slashless_of_isBlank
  have word := slashless_of_isWord
  simp only [guards, List.forall_mem_cons]
  refine ⟨⟨eitherNull_near, ?_⟩, ⟨equalsNull_near, ?_⟩, ⟨negatedWord_near, ?_⟩, by simp⟩
  · exact eitherNull_reads blank word (by decide) (by decide)
  · exact equalsNull_reads blank word (by decide)
  · exact negatedWord_reads blank word (by decide)

/-- Later guards need the words of earlier ones. -/
theorem includes_guards : guards.Pairwise fun earlier later =>
    ∀ t, hasWords later.2 t = true → hasWords earlier.2 t = true := by
  have returns : ∀ t, hasWords ["printf", "return"] t = true → hasWords ["return"] t = true := by
    intro t found
    have last : ["return".toList].Sublist ["printf".toList, "return".toList] :=
      List.sublist_cons_self _ _
    exact List.isSublist_iff_sublist.mpr (last.trans (List.isSublist_iff_sublist.mp found))
  simp only [guards, List.pairwise_cons, List.forall_mem_cons]
  exact ⟨⟨fun _ => id, returns, by simp⟩, ⟨returns, by simp⟩, by simp, .nil⟩

theorem isNote_comment : IsNote comment :=
  ⟨⟨_, rfl⟩, comments_noBrace.1, by decide, by decide⟩

/-- On the rewrite of a text the template does nothing. -/
theorem rewrite_again (text : List Char)
    : NullGuards.rewrite (NullGuards.rewrite text) = NullGuards.rewrite text := by
  refine replaceAll_of_absent ?_
  rw [idioms_eq, List.forall_mem_map]
  intro guard member
  rw [← Bool.not_eq_true, Idiom.occursIn_iff_standsIn]
  exact not_standsIn_replaceAll simple_guards includes_guards isNote_comment text guard member

end NullGuards

-----------------------------------------------------------------------------------------
-- Zone constants
-----------------------------------------------------------------------------------------

namespace ZoneConstants

/-- On the rewrite of a text the template does nothing: the text has the constants then, or there is
no center to make them of.
-/
theorem rewrite_again (settings : Settings) (facts : Facts) (text : List Char)
    : ZoneConstants.rewrite settings facts (ZoneConstants.rewrite settings facts text)
      = ZoneConstants.rewrite settings facts text := by
  cases present : occurs centerName.toList text with
  | true => simp only [rewrite_of_occurs settings facts present]
  | false =>
      cases center : facts.center? with
      | none => simp [ZoneConstants.rewrite, present, center]
      | some place =>
          refine rewrite_of_occurs settings facts ?_
          simp only [ZoneConstants.rewrite, present, center, Bool.false_eq_true, if_false]
          exact occurs_of_infix (occurs_constants settings place (facts.area?.getD 0.0))
            (List.infix_append _ _ _)

end ZoneConstants

/-- Main statement: the templates for coordinates, null guards, storage and zone constants change
nothing in a text that they have transformed.
-/
theorem transform_again (settings : Settings) (facts : Facts) (text : List Char)
    : transform settings facts .narrowCoordinates (transform settings facts .narrowCoordinates text)
        = transform settings facts .narrowCoordinates text
      ∧ transform settings facts .removeNullGuards (transform settings facts .removeNullGuards text)
        = transform settings facts .removeNullGuards text
      ∧ transform settings facts .compressStorage (transform settings facts .compressStorage text)
        = transform settings facts .compressStorage text
      ∧ transform settings facts .zoneConstants (transform settings facts .zoneConstants text)
        = transform settings facts .zoneConstants text := by
  refine ⟨transform_again_iff.mpr fun _ => ?_, transform_again_iff.mpr fun _ => ?_,
    transform_again_iff.mpr fun _ => ?_, transform_again_iff.mpr fun _ => ?_⟩
  · exact NarrowCoordinates.rewrite_of_narrowed (NarrowCoordinates.narrowed_rewrite text)
  · exact NullGuards.rewrite_again text
  · exact CompressStorage.rewrite_again settings facts text
  · exact ZoneConstants.rewrite_again settings facts text

end RangeTuner.Rewrite
