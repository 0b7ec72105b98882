import Mathlib.Data.List.Induction
import RangeTuner.Optimization

/-! Values per optimization and their lists. The values that are present are listed in declaration
order, and of a list of entries the last one for an optimization gives its value. Main statement:
values put together from their list are the values.
-/

namespace RangeTuner.PerOptimization

variable {α : Type}

-----------------------------------------------------------------------------------------
-- The list of values
-----------------------------------------------------------------------------------------

theorem mem_toList_iff {t : PerOptimization α} {optimization : Optimization} {a : α}
    : (optimization, a) ∈ t.toList ↔ t.get? optimization = some a := by
  simp [toList, optimization.mem_all]

/-- The optimizations with values are listed in declaration order. -/
theorem map_fst_toList (t : PerOptimization α)
    : t.toList.map Prod.fst
      = Optimization.all.filter fun optimization => (t.get? optimization).isSome := by
  rw [toList, List.map_filterMap, ← List.filterMap_eq_filter]
  congr 1
  funext optimization
  cases found : t.get? optimization <;> simp [Option.guard, found]

theorem nodup_toList (t : PerOptimization α) : (t.toList.map Prod.fst).Nodup := by
  rw [map_fst_toList]
  exact List.filter_sublist.nodup (by decide)

/-- Values for all optimizations are listed for all of them. -/
theorem map_fst_toList_of_complete {t : PerOptimization α}
    (complete : ∀ optimization, ∃ a, t.get? optimization = some a)
    : t.toList.map Prod.fst = Optimization.all := by
  rw [map_fst_toList, List.filter_eq_self]
  intro optimization _
  obtain ⟨a, present⟩ := complete optimization
  rw [present, Option.isSome_some]

-----------------------------------------------------------------------------------------
-- Values of a list
-----------------------------------------------------------------------------------------

theorem ofList_concat (entries : List (Optimization × α)) (entry : Optimization × α)
    : ofList (entries ++ [entry]) = (ofList entries).insert entry.1 entry.2 := by
  simp [ofList]

/-- A value that is found is that of an entry. -/
theorem mem_of_get?_ofList {entries : List (Optimization × α)}
    {optimization : Optimization} {a : α} (found : (ofList entries).get? optimization = some a)
    : (optimization, a) ∈ entries := by
  induction entries using List.reverseRecOn with
  | nil => cases found
  | append_singleton before entry ih =>
      rw [ofList_concat] at found
      simp only [insert] at found
      split at found
      next same =>
        cases found
        rw [same]
        simp
      next => exact List.mem_append_left _ (ih found)

/-- The value of an entry is found where no optimization has two. -/
theorem get?_ofList_of_mem {entries : List (Optimization × α)}
    (single : (entries.map Prod.fst).Nodup) {entry : Optimization × α}
    (member : entry ∈ entries)
    : (ofList entries).get? entry.1 = some entry.2 := by
  induction entries using List.reverseRecOn with
  | nil => cases member
  | append_singleton entries last ih =>
      rw [List.map_append, List.nodup_append] at single
      obtain ⟨before, -, apart⟩ := single
      rw [ofList_concat]
      rcases List.mem_append.mp member with within | atEnd
      · have other := apart entry.1 (List.mem_map_of_mem within) last.1 (by simp)
        simp [insert, other, ih before within]
      · obtain rfl := List.mem_singleton.mp atEnd
        simp [insert]

/-- Entries for all optimizations make values for all of them. -/
theorem exists_get?_ofList {entries : List (Optimization × α)}
    (all : entries.map Prod.fst = Optimization.all) (optimization : Optimization)
    : ∃ a, (ofList entries).get? optimization = some a ∧ (optimization, a) ∈ entries := by
  obtain ⟨entry, member, rfl⟩ := List.mem_map.mp (all ▸ optimization.mem_all)
  exact ⟨entry.2, get?_ofList_of_mem (by rw [all]; decide) member, member⟩

/-- Values put together from their list are the values. -/
theorem ofList_toList (t : PerOptimization α)
    : ofList t.toList = t := by
  have same : ∀ optimization, (ofList t.toList).get? optimization = t.get? optimization := by
    intro optimization
    cases found : t.get? optimization with
    | some a => exact get?_ofList_of_mem t.nodup_toList (mem_toList_iff.mpr found)
    | none =>
        apply Option.eq_none_iff_forall_ne_some.mpr
        intro a listed
        have present := mem_toList_iff.mp (mem_of_get?_ofList listed)
        rw [found] at present
        cases present
  cases t
  exact congrArg PerOptimization.mk (funext same)

end RangeTuner.PerOptimization
