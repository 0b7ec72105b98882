import RangeTuner.Json.Record
import RangeTuner.Proofs.Json.Reading

/-! Forms that are read back. Each way of putting a form together from parts keeps its value when
the parts keep theirs, and a structure that is written with all its fields has each of them under
its name.
-/

namespace RangeTuner.Json

variable {α : Type} {encode : α → Json} {decode : Json → Option α}

/-- The form of a value can be written, and the value is read back from it. -/
structure Keeps (encode : α → Json) (decode : Json → Option α) (a : α) : Prop where
  proper : (encode a).Proper
  read : decode (encode a) = some a

/-- The decimal written for a double is read as the same double, which is finite then. -/
def Exact (x : Float) : Prop :=
  (ofFloat x).float? = some x

instance (x : Float) : Decidable (Exact x) :=
  inferInstanceAs (Decidable (_ = _))

-----------------------------------------------------------------------------------------
-- Values without parts
-----------------------------------------------------------------------------------------

theorem keeps_string (s : String)
    : Keeps .string string? s :=
  ⟨trivial, rfl⟩

theorem keeps_bool (b : Bool)
    : Keeps .bool bool? b :=
  ⟨trivial, rfl⟩

/-- A number that is not negative and has sixty-four bits is kept. -/
theorem keeps_ofNat {n : Nat} (held : n < 18446744073709551616)
    : Keeps ofNat nat? n where
  read := nat?_ofNat held
  proper := by
    constructor
    · rw [toList_toString, (literal?_digits n).1]
      rfl
    · have read : (Json.number (toString n)).nat? = some n := nat?_ofNat held
      rw [isNumber, read]
      rfl

theorem keeps_ofWord (w : UInt64)
    : Keeps ofWord word? w :=
  ⟨(keeps_ofNat w.toNat_lt).proper, word?_ofWord w⟩

/-- A number of sixty-three bits and a sign is kept. -/
theorem keeps_ofInt {n : Int} (held : -9223372036854775808 ≤ n ∧ n < 9223372036854775808)
    : Keeps ofInt signed? n where
  read := signed?_ofInt held
  proper := by
    constructor
    · rw [toList_toString_int]
      split
      · rw [(literal?_digits _).1]
        rfl
      · rw [(literal?_digits _).2]
        rfl
    · have read : (Json.number (toString n)).signed? = some n := signed?_ofInt held
      rw [isNumber, read, Option.isSome_some, Bool.or_true, Bool.true_or]

/-- A double that is exact is written as a number and is kept. -/
theorem Exact.keeps {x : Float} (exact : Exact x)
    : Keeps ofFloat float? x where
  read := exact
  proper := by
    cases written : ofFloat x with
    | number text =>
        have read : (Json.number text).float? = some x := written ▸ exact
        constructor
        · simp only [float?, Option.bind_eq_bind, Option.bind_eq_some_iff] at read
          obtain ⟨parts, number, -⟩ := read
          rw [number]
          rfl
        · rw [isNumber, read, Option.isSome_some, Bool.or_true]
    | _ =>
        unfold Exact at exact
        rw [written] at exact
        cases exact

/-- A double that is exact is finite, so it is not written as `null`. -/
theorem Exact.ne_null {x : Float} (exact : Exact x)
    : ofFloat x ≠ .null := by
  intro isNull
  rw [Exact, isNull] at exact
  cases exact

-----------------------------------------------------------------------------------------
-- Lists, options and pairs
-----------------------------------------------------------------------------------------

/-- A list is kept when its items are, by induction on the items. -/
theorem Keeps.list {items : List α} (keeps : ∀ a ∈ items, Keeps encode decode a)
    : Keeps (ofList encode) (list? decode) items where
  proper := by
    apply proper_array_iff.mpr
    intro item member
    obtain ⟨a, listed, rfl⟩ := List.mem_map.mp member
    exact (keeps a listed).proper
  read := by
    change (items.map encode).mapM decode = some items
    induction items with
    | nil => rfl
    | cons a rest ih =>
        obtain ⟨first, others⟩ := List.forall_mem_cons.mp keeps
        rw [List.map_cons, List.mapM_cons, first.read, ih others]
        rfl

/-- A value that may be absent is kept when no value is written as `null`. -/
theorem Keeps.option {a? : Option α}
    (keeps : ∀ a, a? = some a → Keeps encode decode a ∧ encode a ≠ .null)
    : Keeps (ofOption encode) (option? decode) a? := by
  cases a? with
  | none => exact ⟨trivial, rfl⟩
  | some a =>
      obtain ⟨⟨proper, read⟩, notNull⟩ := keeps a rfl
      refine ⟨proper, ?_⟩
      unfold ofOption option?
      split
      next isNull => exact absurd isNull notNull
      next => rw [read, Option.map_some]

/-- A pair is kept as a list of two when both parts are. -/
theorem Keeps.pair {p : α × α} (first : Keeps encode decode p.1) (second : Keeps encode decode p.2)
    : Keeps (fun p : α × α => ofList encode [p.1, p.2]) (pair? decode) p where
  proper := proper_array_iff.mpr (by simp [first.proper, second.proper])
  read := by simp [ofList, pair?, first.read, second.read]

/-- Three values are kept as a list of three when each of them is. -/
theorem Keeps.triple {t : α × α × α} (first : Keeps encode decode t.1)
    (second : Keeps encode decode t.2.1) (third : Keeps encode decode t.2.2)
    : Keeps (fun t : α × α × α => ofList encode [t.1, t.2.1, t.2.2]) (triple? decode) t where
  proper := proper_array_iff.mpr (by simp [first.proper, second.proper, third.proper])
  read := by simp [ofList, triple?, first.read, second.read, third.read]

-----------------------------------------------------------------------------------------
-- Structures
-----------------------------------------------------------------------------------------

/-- Among members with different names, at most one has a given name: the one that is looked up.
-/
theorem named_eq_lookup {members : List (String × Json)} (single : (members.map Prod.fst).Nodup)
    (name : String)
    : named name members = (members.lookup name).toList := by
  induction members with
  | nil => rfl
  | cons member rest ih =>
      obtain ⟨first, item⟩ := member
      obtain ⟨fresh, single⟩ := List.nodup_cons.mp single
      have later := ih single
      by_cases same : name = first
      · subst same
        have absent : named name rest = [] := by
          simp only [named, List.map_eq_nil_iff, List.filter_eq_nil_iff, decide_eq_true_eq]
          intro other member same
          exact fresh (List.mem_map.mpr ⟨other, member, same⟩)
        simp only [named] at absent
        simp [named, absent]
      · have differs : (name == first) = false := beq_false_of_ne same
        rw [List.lookup_cons, differs]
        simpa [named, Ne.symm same] using later

theorem lookup_eq_none {members : List (String × Json)} {name : String}
    (absent : name ∉ members.map Prod.fst)
    : members.lookup name = none := by
  apply List.lookup_eq_none_iff.mpr
  intro member listed
  have differs : name ≠ member.1 := fun same => absent (same ▸ List.mem_map_of_mem listed)
  exact bne_iff_ne.mpr differs

/-- A structure that is written with some of its fields, each once, has them under their names. -/
theorem record?_object_of_subset {completeness : Completeness} {names : List String}
    {members : List (String × Json)} (among : members.map Prod.fst ⊆ names)
    (single : (members.map Prod.fst).Nodup)
    : record? completeness names (.object members) = some ⟨(members.lookup ·)⟩ := by
  have once : (names.all fun name => (named name members).length ≤ 1) = true := by
    simp only [List.all_eq_true, decide_eq_true_eq]
    intro name _
    rw [named_eq_lookup single]
    cases members.lookup name <;> simp
  have field : (fun name => if name ∈ names then (named name members).head? else none)
      = (members.lookup ·) := by
    funext name
    split
    · rw [named_eq_lookup single]
      cases members.lookup name <;> rfl
    next absent => exact (lookup_eq_none fun present => absent (among present)).symm
  simp only [record?, once, field, if_true]

/-- A structure that is written with all its fields, each once, has them under their names. -/
theorem record?_object {completeness : Completeness} {names : List String}
    {members : List (String × Json)} (all : members.map Prod.fst = names) (single : names.Nodup)
    : record? completeness names (.object members) = some ⟨(members.lookup ·)⟩ :=
  record?_object_of_subset (all ▸ List.Subset.refl _) (all ▸ single)

/-- A field that must be present is read from its member. -/
theorem Keeps.require {members : List (String × Json)} {a : α} (keeps : Keeps encode decode a)
    (name : String) (found : members.lookup name = some (encode a))
    : Record.require ⟨(members.lookup ·)⟩ name decode = some a := by
  simp only [Record.require, found, Option.bind_eq_bind, Option.bind_some, keeps.read]

/-- A field that may be absent is read from its member. -/
theorem Keeps.optional {members : List (String × Json)} {a? : Option α}
    (keeps : Keeps (ofOption encode) (option? decode) a?) (name : String)
    (found : members.lookup name = some (ofOption encode a?))
    : Record.optional ⟨(members.lookup ·)⟩ name decode = some a? := by
  simp only [Record.optional, Record.withDefault, found, keeps.read]

/-- A structure with its tag in front is read apart. -/
theorem tagged?_object {tag kind : String} {kind? : Json → Option String} {j : Json}
    {members : List (String × Json)} (read : kind? j = some kind)
    (fresh : tag ∉ members.map Prod.fst)
    : tagged? tag kind? (.object ((tag, j) :: members)) = some (kind, .object members) := by
  have others : ∀ member ∈ members, member.1 ≠ tag :=
    fun member listed same => fresh (same ▸ List.mem_map_of_mem listed)
  have single : named tag ((tag, j) :: members) = [j] := by
    have none : members.filter (fun member => member.1 = tag) = [] :=
      List.filter_eq_nil_iff.mpr (by simpa using others)
    simp [named, none]
  have rest : ((tag, j) :: members).filter (fun member => member.1 ≠ tag) = members := by
    have all : members.filter (fun member => member.1 ≠ tag) = members :=
      List.filter_eq_self.mpr (by simpa using others)
    rw [List.filter_cons_of_neg (by simp), all]
  simp only [tagged?, single, read, rest]
  rfl

-----------------------------------------------------------------------------------------
-- Depth
-----------------------------------------------------------------------------------------

theorem depth_array_le_iff {items : List Json} {n : Nat}
    : (Json.array items).depth ≤ n + 1 ↔ ∀ item ∈ items, item.depth ≤ n := by
  rw [depth, Nat.add_le_add_iff_right]
  induction items with
  | nil => simp [depthOfItems]
  | cons item rest ih => simp [depthOfItems, ih]

theorem depth_object_le_iff {members : List (String × Json)} {n : Nat}
    : (Json.object members).depth ≤ n + 1 ↔ ∀ member ∈ members, member.2.depth ≤ n := by
  rw [depth, Nat.add_le_add_iff_right]
  induction members with
  | nil => simp [depthOfMembers]
  | cons member rest ih => simp [depthOfMembers, ih]

@[simp] theorem depth_ofFloat (x : Float)
    : (ofFloat x).depth = 0 := by
  unfold ofFloat
  split <;> rfl

@[simp] theorem depth_ofNat (n : Nat)
    : (ofNat n).depth = 0 :=
  rfl

@[simp] theorem depth_ofWord (w : UInt64)
    : (ofWord w).depth = 0 :=
  rfl

theorem depth_ofList_le_iff {items : List α} {n : Nat}
    : (ofList encode items).depth ≤ n + 1 ↔ ∀ a ∈ items, (encode a).depth ≤ n := by
  rw [ofList, depth_array_le_iff, List.forall_mem_map]

end RangeTuner.Json
