import RangeTuner.Proofs.Json.Record

/-! Forms with fields left out. Fields are dropped by their paths, at every level of structures
inside each other, and arrays are kept whole. Main statement: a field that is read where it is
present and filled in where it is absent is the standard value if it was dropped, and otherwise what
is read of its own form.
-/

namespace RangeTuner.Json

/-- Fields of structures inside each other, by the names that lead to them. -/
abbrev Paths := List String → Bool

namespace Paths

/-- The fields inside a member. -/
def inside (dropped : Paths) (name : String) : Paths :=
  fun path => dropped (name :: path)

/-- The standard value of a field that is dropped, and the own value of any other. -/
def choose {α : Type} (dropped : Paths) (name : String) (standard own : α) : α :=
  if dropped [name] then standard else own

end Paths

mutual

/-- A value without the members that are dropped; arrays are kept whole. -/
def without (dropped : Paths) : Json → Json
  | .object members => .object (withoutMembers dropped members)
  | j => j

/-- The members of an object that are not dropped, each without what is dropped inside of it. -/
def withoutMembers (dropped : Paths) : List (String × Json) → List (String × Json)
  | [] => []
  | (name, item) :: rest =>
      if dropped [name] then withoutMembers dropped rest
      else (name, without (dropped.inside name) item) :: withoutMembers dropped rest

end

mutual

/-- Nothing is left out where nothing is dropped, by induction on the value. -/
theorem without_nothing : (j : Json) → j.without (fun _ => false) = j
  | .object members => congrArg _ (withoutMembers_nothing members)
  | .null | .bool _ | .number _ | .string _ | .garbled | .array _ => rfl

theorem withoutMembers_nothing
    : (members : List (String × Json)) → withoutMembers (fun _ => false) members = members
  | [] => rfl
  | (name, item) :: rest => by
      rw [withoutMembers, if_neg Bool.false_ne_true, withoutMembers_nothing rest]
      exact congrArg (fun item => (name, item) :: rest) (without_nothing item)

end

mutual

/-- What is left can be written, by induction on the value. -/
theorem proper_without : (j : Json) → (dropped : Paths) → j.Proper → (j.without dropped).Proper
  | .object members, dropped, proper => properMembers_without members dropped proper
  | .null, _, proper | .bool _, _, proper | .number _, _, proper | .string _, _, proper
  | .garbled, _, proper | .array _, _, proper => proper

theorem properMembers_without
    : (members : List (String × Json)) → (dropped : Paths) → ProperMembers members
      → ProperMembers (withoutMembers dropped members)
  | [], _, _ => trivial
  | (name, item) :: rest, dropped, ⟨proper, others⟩ => by
      rw [withoutMembers]
      split
      · exact properMembers_without rest dropped others
      · exact ⟨proper_without item _ proper, properMembers_without rest dropped others⟩

end

/-- The names that are left are among the names, in their order. -/
theorem map_fst_withoutMembers_sublist (dropped : Paths) (members : List (String × Json))
    : ((withoutMembers dropped members).map Prod.fst).Sublist (members.map Prod.fst) := by
  induction members with
  | nil => exact .slnil
  | cons member rest ih =>
      rw [withoutMembers]
      split
      · exact ih.cons _
      · exact ih.cons_cons _

/-- A member is looked up among those that are left as it is among all, unless it was dropped. -/
theorem lookup_withoutMembers (dropped : Paths) (members : List (String × Json)) (name : String)
    : (withoutMembers dropped members).lookup name
      = if dropped [name] then none
        else (members.lookup name).map (without (dropped.inside name)) := by
  induction members with
  | nil => simp [withoutMembers]
  | cons member rest ih =>
      obtain ⟨first, item⟩ := member
      rw [withoutMembers]
      by_cases same : name = first
      · subst same
        split
        next gone => rw [ih, if_pos gone]
        next => simp
      · have differs : (name == first) = false := beq_false_of_ne same
        split
        · rw [ih, List.lookup_cons, differs]
        · rw [List.lookup_cons, differs, List.lookup_cons, differs, ih]

/-- A structure that some fields were dropped of has those that are left under their names. -/
theorem record?_without {completeness : Completeness} (names : List String)
    {members : List (String × Json)} (dropped : Paths) (all : members.map Prod.fst = names)
    (single : names.Nodup)
    : record? completeness names ((Json.object members).without dropped)
      = some ⟨((withoutMembers dropped members).lookup ·)⟩ := by
  have sublist := map_fst_withoutMembers_sublist dropped members
  rw [all] at sublist
  exact record?_object_of_subset sublist.subset (sublist.nodup single)

-----------------------------------------------------------------------------------------
-- Values with standard ones in place of what is dropped
-----------------------------------------------------------------------------------------

variable {α : Type} {encode : α → Json} {decode : Json → Option α} {overlay : Paths → α → α} {a : α}

/-- The form of a value can be written, and from the form without some fields the value is read
with others in their place.
-/
structure Overlays (encode : α → Json) (decode : Json → Option α) (overlay : Paths → α → α) (a : α)
    : Prop where
  proper : (encode a).Proper
  read : ∀ dropped, decode ((encode a).without dropped) = some (overlay dropped a)

/-- A form that is kept whole keeps its value. -/
theorem Keeps.overlays (keeps : Keeps encode decode a)
    (whole : ∀ dropped, (encode a).without dropped = encode a)
    : Overlays encode decode (fun _ a => a) a where
  proper := keeps.proper
  read dropped := by rw [whole, keeps.read]

/-- A value is kept by a form that nothing is dropped of. -/
theorem Overlays.keeps (overlays : Overlays encode decode overlay a)
    (nothing : overlay (fun _ => false) a = a)
    : Keeps encode decode a where
  proper := overlays.proper
  read := by
    have read := overlays.read fun _ => false
    rwa [without_nothing, nothing] at read

/-- A field is the standard value if it was dropped, and otherwise what is read of its own form. -/
theorem Overlays.withDefault {members : List (String × Json)}
    (overlays : Overlays encode decode overlay a) (dropped : Paths) (name : String) (standard : α)
    (found : members.lookup name = some (encode a))
    : Record.withDefault ⟨((withoutMembers dropped members).lookup ·)⟩ name standard decode
      = some (dropped.choose name standard (overlay (dropped.inside name) a)) := by
  simp only [Record.withDefault, lookup_withoutMembers, found, Option.map_some, Paths.choose]
  cases dropped [name] with
  | true => rfl
  | false => exact overlays.read _

/-- A double that is exact is kept whole. -/
theorem Exact.overlays {x : Float} (exact : Exact x)
    : Overlays ofFloat float? (fun _ x => x) x := by
  refine exact.keeps.overlays fun dropped => ?_
  unfold ofFloat
  split <;> rfl

end RangeTuner.Json
