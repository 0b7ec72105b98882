import RangeTuner.Proofs.Rewrite.LeadingLines

/-! Zone constants that are put in. Where the facts of a small zone are known, the constants come
into a text in the place of line feeds, and nothing else changes. Main statement: they follow the
last include or definition among the lines without code that the text starts with.
-/

namespace RangeTuner.Rewrite.ZoneConstants

open RangeTuner.Spec RangeTuner.Text

variable {settings : Settings} {facts : Facts} {text : List Char}

/-- A small zone has a center and an area. -/
theorem exists_of_authorizes (small : authorizes settings facts = true)
    : ∃ center area, facts.center? = some center ∧ facts.area? = some area := by
  rw [authorizes, areaWithin, Bool.and_eq_true, Option.any_eq_true] at small
  obtain ⟨⟨area, known, -⟩, located⟩ := small
  obtain ⟨center, located⟩ := Option.isSome_iff_exists.mp located
  exact ⟨center, area, located, known⟩

/-- A text is its leading line feeds and the rest of it. -/
theorem exists_feeds (s : List Char)
    : ∃ k b, s = List.replicate k '\n' ++ b ∧ s.dropWhile (· == '\n') = b
      ∧ b.head? ≠ some '\n' := by
  refine ⟨(s.takeWhile (· == '\n')).length, s.dropWhile (· == '\n'), ?_, rfl, fun first => ?_⟩
  · have feeds : s.takeWhile (· == '\n')
        = List.replicate (s.takeWhile (· == '\n')).length '\n' := by
      refine List.eq_replicate_iff.mpr ⟨rfl, fun c member => ?_⟩
      exact beq_iff_eq.mp (List.all_eq_true.mp List.all_takeWhile c member)
    rw [← feeds, List.takeWhile_append_dropWhile]
  · have stops := List.head?_dropWhile_not (· == '\n') s
    simp [first] at stops

/-- The constants come behind the beginning for them, in the place of the line feeds there. -/
theorem rewrite_of_absent {center : Float × Float} {area : Float} {rest : List Char}
    (absent : occurs centerName.toList text = false) (located : facts.center? = some center)
    (known : facts.area? = some area) (whole : text = start text ++ rest)
    : rewrite settings facts text
      = start text ++ (constants settings center area ++ rest.dropWhile (· == '\n')) := by
  have behind : text.drop (start text).length = rest := by
    conv => lhs; arg 2; rw [whole]
    exact List.drop_left
  simp [rewrite, absent, located, known, behind]

/-- Main statement: the constants are put in before any code. They come into the place of line feeds
behind the last include or definition of the leading run, or at the start of the text where the run
has none.
-/
theorem constants_inserted (settings : Settings) (facts : Facts) (text : List Char)
    (absent : occurs centerName.toList text = false) (small : authorizes settings facts = true)
    : ∃ center area a k b run rest,
      facts.center? = some center ∧ facts.area? = some area
      ∧ text = a ++ (List.replicate k '\n' ++ b)
      ∧ rewrite settings facts text = a ++ (constants settings center area ++ b)
      ∧ b.head? ≠ some '\n'
      ∧ (a = [] ∨ EndsInDirective a (List.replicate k '\n' ++ b))
      ∧ text = run ++ rest ∧ LeadingRun run rest ∧ a <+: run
      ∧ ∀ a' after, text = a' ++ after → EndsInDirective a' after → a' <+: run → a' <+: a := by
  obtain ⟨center, area, located, known⟩ := exists_of_authorizes small
  obtain ⟨behind, whole, within, directed⟩ := start_endsInDirective text
  obtain ⟨rest, whole', run⟩ := prologue_leadingRun text
  obtain ⟨k, b, feeds, dropped, visible⟩ := exists_feeds behind
  refine ⟨center, area, start text, k, b, prologue text, rest, located, known, feeds ▸ whole, ?_,
    visible, feeds ▸ directed, whole', run, within, fun a' after split ends inside => ?_⟩
  · rw [rewrite_of_absent absent located known whole, dropped]
  · exact prefix_start split ends inside

/-- The facts of a small zone. -/
def zone : Facts :=
  [("latitude_min", -16.40), ("latitude_max", -16.32), ("longitude_min", -71.60),
    ("longitude_max", -71.52), (Facts.area, 75.0)].foldl
      (fun facts (name, figure) => facts.insert name figure) .empty

/-- A text with a definition behind its code. -/
def lateDefinition : List Char :=
  "#include <a.h>\n\nint x;\n#define LATE 1".toList

/-- A definition behind code does not move the constants. -/
theorem constants_inserted_of_lateDefinition
    : occurs centerName.toList lateDefinition = false ∧ authorizes .standard zone = true
      ∧ ∃ center area a k b run rest,
        zone.center? = some center ∧ zone.area? = some area
        ∧ lateDefinition = a ++ (List.replicate k '\n' ++ b)
        ∧ rewrite .standard zone lateDefinition = a ++ (constants .standard center area ++ b)
        ∧ b.head? ≠ some '\n'
        ∧ (a = [] ∨ EndsInDirective a (List.replicate k '\n' ++ b))
        ∧ lateDefinition = run ++ rest ∧ LeadingRun run rest ∧ a <+: run
        ∧ ∀ a' after, lateDefinition = a' ++ after → EndsInDirective a' after → a' <+: run
          → a' <+: a := by
  have absent : occurs centerName.toList lateDefinition = false := by decide +kernel
  have small : authorizes .standard zone = true := by decide +kernel
  exact ⟨absent, small, constants_inserted .standard zone lateDefinition absent small⟩

end RangeTuner.Rewrite.ZoneConstants
