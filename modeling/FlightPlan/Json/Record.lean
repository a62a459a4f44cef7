import FlightPlan.Json.Basic

/-!
# `FlightPlan.Json.Record`: structures in documents

A structure is declared as a list of fields. `Json.record` finds their values in
either of the two forms a document may use: an object, where each field is found
by its name or an alias and other keys are passed over, or an array, which gives
the values in the order of declaration and may stop early. A field that is given
twice, under whatever names, makes the structure unreadable, and so does an
array that is too long.

What an absent field means is said where a field is read: it may be `required`,
have a default (`getD`), or be `optional`, where `null` counts as absent too.
-/

set_option autoImplicit false

namespace FlightPlan.Json

/-- A field of a structure. -/
structure Field where
  /-- The name it is written under. -/
  name : String
  /-- Other names it is read under. -/
  aliases : List String

/-- A field with one name. -/
def field (name : String) : Field :=
  ⟨name, []⟩

/-- The field is read under this key. -/
def Field.answersTo (f : Field) (key : String) : Bool :=
  f.name == key || f.aliases.contains key

/-- The values given for the fields of a structure, by field name. -/
structure Record where
  values : List (String × Json)

/-- The member as a value of the field that its key belongs to. -/
def claimedBy (fields : List Field) (member : String × Json) : Option (String × Json) :=
  (fields.find? (·.answersTo member.1)).map fun f => (f.name, member.2)

/-- The values of the declared fields in an object or array. -/
def record (fields : List Field) : Json → Option Record
  | .object members =>
    let values := members.filterMap (claimedBy fields)
    if (values.map Prod.fst).Nodup then some ⟨values⟩ else none
  | .array items =>
    if items.length ≤ fields.length then some ⟨(fields.map Field.name).zip items⟩ else none
  | _ => none

namespace Record

variable {α : Type}

/-- The value given for a field. -/
def get? (r : Record) (name : String) : Option Json :=
  r.values.lookup name

/-- A field that must be given. -/
def required (r : Record) (name : String) (decode : Json → Option α) : Option α :=
  (r.get? name).bind decode

/-- A field that has a default. -/
def getD (r : Record) (name : String) (decode : Json → Option α) (default : α) :
    Option α :=
  match r.get? name with
  | none => some default
  | some j => decode j

/-- A field that need not be given, and may be given as `null`. -/
def optional (r : Record) (name : String) (decode : Json → Option α) :
    Option (Option α) :=
  match r.get? name with
  | none => some none
  | some .null => some none
  | some j => (decode j).map some

end Record

end FlightPlan.Json
