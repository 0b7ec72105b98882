import RangeTuner.Json.Value

/-! Structures in JSON: an object with a member per field, or an array of the fields in their
order. Members that are no fields are ignored and a repeated field is refused. A field that is
absent is filled in where the structure has standard values.
-/

namespace RangeTuner.Json

/-- The fields of a structure that are present, by name. -/
structure Record where
  field? : String → Option Json

/-- Whether fields may be left out of the array form of a structure. -/
inductive Completeness where
  | strict
  | lenient
deriving DecidableEq

/-- The members of one name. -/
def named (name : String) (members : List (String × Json)) : List Json :=
  (members.filter fun member => member.1 = name).map Prod.snd

/-- The fields of a structure with these names. -/
def record? (completeness : Completeness) (names : List String) : Json → Option Record
  | .object members =>
      if names.all fun name => (named name members).length ≤ 1 then
        some ⟨fun name => if name ∈ names then (named name members).head? else none⟩
      else none
  | .array items =>
      if items.length = names.length
        ∨ (completeness = .lenient ∧ items.length < names.length) then
        some ⟨fun name => (names.findIdx? (· = name)).bind fun place => items[place]?⟩
      else none
  | _ => none

namespace Record

variable {α : Type}

/-- A field that must be present. -/
def require (r : Record) (name : String) (decode : Json → Option α) : Option α := do
  decode (← r.field? name)

/-- A field that is filled in where it is absent. -/
def withDefault (r : Record) (name : String) (standard : α) (decode : Json → Option α)
    : Option α :=
  match r.field? name with
  | some j => decode j
  | none => some standard

/-- A field that may be absent or `null`. -/
def optional (r : Record) (name : String) (decode : Json → Option α) : Option (Option α) :=
  r.withDefault name none (option? decode)

end Record

/-- One of several names: the string, or an object of that name alone with nothing in it. -/
def choice? (ofName? : String → Option α) : Json → Option α
  | .string name => ofName? name
  | .object [(name, .null)] => ofName? name
  | _ => none

/-- One of several names inside a structure that is kept whole before it is read: an object of
the name alone may hold an empty object too.
-/
def keptChoice? (ofName? : String → Option α) : Json → Option α
  | .object [(name, .object [])] => ofName? name
  | j => choice? ofName? j

/-- The tag of a structure inside another one that is kept whole: a name, or the place of one
among the names of the kinds.
-/
def keptTag? (kinds : List String) : Json → Option String
  | .string kind => some kind
  | j => do kinds[← j.nat?]?

/-- A structure with a tag that tells its kind: the tag and what else it holds. The tag is a
member, or the first item of the array form.
-/
def tagged? (tag : String) (kind? : Json → Option String) : Json → Option (String × Json)
  | .object members =>
      match named tag members with
      | [j] => do return (← kind? j, .object (members.filter fun member => member.1 ≠ tag))
      | _ => none
  | .array (j :: items) => do return (← kind? j, .array items)
  | _ => none

end RangeTuner.Json
