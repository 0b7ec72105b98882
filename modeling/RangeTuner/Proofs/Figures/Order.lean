import Mathlib.Data.List.Nodup
import RangeTuner.Figures

/-! The order of a table. Writing keeps the entries in ascending order of their names, so a name has
one entry at most. Main statement: ordered tables that agree on every name are the same table.
-/

namespace RangeTuner.Figures

/-- The entries stand in ascending order of their names, each name once at most. -/
def Ordered (t : Figures) : Prop :=
  t.entries.Pairwise fun first second => first.1 < second.1

theorem ordered_empty : empty.Ordered :=
  List.Pairwise.nil

/-- Placing an entry adds no other, by induction on the entries. -/
theorem mem_place {name : String} {figure : Float} {entry : String × Float}
    {entries : List (String × Float)} (member : entry ∈ place name figure entries)
    : entry = (name, figure) ∨ entry ∈ entries := by
  induction entries with
  | nil => exact .inl (List.mem_singleton.mp member)
  | cons first rest ih =>
      obtain ⟨other, old⟩ := first
      simp only [place] at member
      split at member
      · exact (List.mem_cons.mp member).imp_right (List.mem_cons_of_mem _)
      · split at member
        · exact List.mem_cons.mp member
        · rcases List.mem_cons.mp member with same | later
          · exact .inr (List.mem_cons.mpr (.inl same))
          · exact (ih later).imp_right (List.mem_cons_of_mem _)

/-- Placing an entry keeps the order, by induction on the entries. -/
theorem pairwise_place {entries : List (String × Float)}
    (ordered : entries.Pairwise fun first second => first.1 < second.1) (name : String)
    (figure : Float)
    : (place name figure entries).Pairwise fun first second => first.1 < second.1 := by
  induction entries with
  | nil => exact List.pairwise_singleton _ _
  | cons first rest ih =>
      obtain ⟨other, old⟩ := first
      obtain ⟨least, ordered⟩ := List.pairwise_cons.mp ordered
      simp only [place]
      split
      · next same =>
          subst same
          exact List.pairwise_cons.mpr ⟨least, ordered⟩
      · next differs =>
          split
          · next before =>
              refine List.pairwise_cons.mpr ⟨fun entry member => ?_,
                List.pairwise_cons.mpr ⟨least, ordered⟩⟩
              rcases List.mem_cons.mp member with rfl | later
              · exact before
              · exact String.lt_trans before (least entry later)
          · next after =>
              refine List.pairwise_cons.mpr ⟨fun entry member => ?_, ih ordered⟩
              rcases mem_place member with rfl | later
              · exact String.not_le.mp fun above =>
                  differs (String.le_antisymm (String.not_lt.mp after) above)
              · exact least entry later

theorem Ordered.insert {t : Figures} (ordered : t.Ordered) (name : String) (figure : Float)
    : (t.insert name figure).Ordered :=
  pairwise_place ordered name figure

/-- The figure of a name is the one of its entry, by induction on the entries. -/
theorem find?_eq_some_iff {name : String} {figure : Float} {entries : List (String × Float)}
    (ordered : entries.Pairwise fun first second => first.1 < second.1)
    : find? name entries = some figure ↔ (name, figure) ∈ entries := by
  induction entries with
  | nil => simp [find?]
  | cons first rest ih =>
      obtain ⟨other, old⟩ := first
      obtain ⟨least, ordered⟩ := List.pairwise_cons.mp ordered
      simp only [find?, List.mem_cons, Prod.mk.injEq]
      by_cases same : other = name
      · subst same
        have once : (other, figure) ∉ rest :=
          fun later => String.lt_irrefl other (least _ later)
        simp [once, eq_comm]
      · simp [same, Ne.symm same, ih ordered]

/-- Ordered tables that give every name the same figure are the same. -/
theorem Ordered.ext {t u : Figures} (first : t.Ordered) (second : u.Ordered)
    (same : ∀ name, t.get? name = u.get? name)
    : t = u := by
  have nodup : ∀ {v : Figures}, v.Ordered → v.entries.Nodup := by
    intro v ordered
    refine ordered.imp fun {first second} less same => ?_
    exact String.lt_irrefl second.1 (by rwa [same] at less)
  have members : ∀ entry, entry ∈ t.entries ↔ entry ∈ u.entries := by
    rintro ⟨name, figure⟩
    rw [← find?_eq_some_iff first, ← find?_eq_some_iff second]
    exact iff_of_eq (congrArg (· = some figure) (same name))
  have listed : t.entries = u.entries :=
    ((List.perm_ext_iff_of_nodup (nodup first) (nodup second)).mpr members).eq_of_pairwise
      (fun a b _ _ less greater => absurd greater (String.lt_asymm less)) first second
  cases t
  cases u
  exact congrArg _ listed

end RangeTuner.Figures
