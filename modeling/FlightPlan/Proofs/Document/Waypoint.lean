import FlightPlan.Document.Plan
import FlightPlan.Proofs.Json.RoundTrip
import FlightPlan.Proofs.WaypointId

/-!
# `FlightPlan.Proofs.Document.Waypoint`: waypoints are read back

A structure is written as an object with a member for each of its fields, under the
field's own name. Then nothing is lost on the way through a `Json.Record`: the record
holds the members as they are (`Json.record_object`), and each field finds its own.

What a waypoint is written with reads back when its numbers do. `Json.Durable` says so
of one number, and `Waypoint.numbers` lists those of a waypoint. The theorems
`Waypoint.writable_toJson` and `Waypoint.ofJson?_toJson` are for the text and for the
value of the document, and `Waypoint.listOfText?_text` is for whole trajectory files.
-/

set_option autoImplicit false

namespace FlightPlan

namespace Json

/-! ### Structures -/

/-- No two fields have the same name, and no field is meant by the name of another. -/
def Field.Distinct (fields : List Field) : Prop :=
  (fields.map Field.name).Nodup
    ∧ ∀ f ∈ fields, (fields.find? (·.answersTo f.name)).map Field.name = some f.name

/-- It can be decided whether fields are distinct. -/
instance (fields : List Field) : Decidable (Field.Distinct fields) :=
  inferInstanceAs (Decidable (_ ∧ _))

/-- An object that gives the fields in order, up to one of them, is their record. -/
theorem record_object (fields : List Field) {j : Json} {members : List (String × Json)}
    (hj : j = .object members) (count : Nat)
    (hkeys : members.map Prod.fst = (fields.take count).map Field.name)
    (hdistinct : Field.Distinct fields) : record fields j = some ⟨members⟩ := by
  -- Every member is claimed by the field that it is named for, so it keeps its name.
  have hclaimed : ∀ member ∈ members, claimedBy fields member = some member := by
    rintro ⟨key, value⟩ hmember
    have hkey : key ∈ (fields.take count).map Field.name :=
      hkeys ▸ List.mem_map_of_mem (f := Prod.fst) hmember
    obtain ⟨f, hf, rfl⟩ := List.mem_map.mp hkey
    have hname := hdistinct.2 f (List.mem_of_mem_take hf)
    simpa [claimedBy, Function.comp_def] using hname
  have hvalues {rest : List (String × Json)}
      (h : ∀ member ∈ rest, claimedBy fields member = some member) :
      rest.filterMap (claimedBy fields) = rest := by
    induction rest with
    | nil => rfl
    | cons member rest ih =>
        rw [List.forall_mem_cons] at h
        rw [List.filterMap_cons_some h.1, ih h.2]
  have hnodup : (members.map Prod.fst).Nodup := by
    rw [hkeys]
    exact hdistinct.1.sublist ((List.take_sublist count fields).map _)
  rw [hj, record]
  simp only [hvalues hclaimed, if_pos hnodup]

/-- A field is not found in a member with another key. -/
theorem Record.optional_cons_of_ne {α : Type} {key name : String} (h : name ≠ key) (value : Json)
    (rest : List (String × Json)) (decode : Json → Option α) :
    Record.optional ⟨(key, value) :: rest⟩ name decode = Record.optional ⟨rest⟩ name decode := by
  have hlookup : ((key, value) :: rest).lookup name = rest.lookup name := by
    rw [List.lookup_cons, beq_false_of_ne h]
  rw [optional, optional, get?, get?, hlookup]

/-! ### Numbers -/

/-- A double that a document keeps: it is finite, and it is read back from its text. -/
def Durable (x : Float) : Prop :=
  x.isFinite = true ∧ ReadsBack x

/-- It can be decided whether a double is durable. -/
instance (x : Float) : Decidable (Durable x) :=
  inferInstanceAs (Decidable (_ ∧ _))

/-- A durable double is read from its document. -/
theorem Durable.float?_ofFloat {x : Float} (h : Durable x) : (ofFloat x).float? = some x := by
  rw [ofFloat, if_pos h.1]
  rfl

/-- A durable double can be written. -/
theorem Durable.writable {x : Float} (h : Durable x) : Writable (ofFloat x) := by
  rw [ofFloat, if_pos h.1]
  exact .number h.2.ofRun

/-- A double that is not finite is written as `null`. -/
theorem writable_ofFloat {x : Float} (h : x.isFinite = true → ReadsBack x) :
    Writable (ofFloat x) := by
  by_cases hx : x.isFinite = true
  · exact Durable.writable ⟨hx, h hx⟩
  · rw [ofFloat, if_neg hx]
    exact .null

/-- A count that fits into a word can be written. -/
theorem writable_ofNat {n : Nat} (h : n < UInt64.size) : Writable (ofNat n) :=
  .number (ofRun_toDigits h)

end Json

open Json (Durable Writable)

/-! ### Identifiers and heading modes -/

/-- An identifier is read back. -/
theorem WaypointId.ofJson?_toJson (id : WaypointId) : ofJson? id.toJson = some id :=
  read_toText id

namespace HeadingMode

/-- The numbers of a heading mode. -/
def numbers : HeadingMode Float → List Float
  | .auto => []
  | .manual degrees => [degrees]

/-- A heading mode can be written if its heading is read back or not finite. -/
theorem writable_toJson {mode : HeadingMode Float}
    (h : ∀ x ∈ mode.numbers, x.isFinite = true → Json.ReadsBack x) : Writable mode.toJson := by
  cases mode with
  | auto =>
      refine .object ?_
      simp only [List.forall_mem_cons]
      exact ⟨.string "auto", fun _ hmember => nomatch hmember⟩
  | manual degrees =>
      refine .object ?_
      simp only [List.forall_mem_cons]
      exact ⟨.string "manual", Json.writable_ofFloat (h degrees List.mem_cons_self),
        fun _ hmember => nomatch hmember⟩

/-- The fields of a heading mode are distinct. -/
theorem distinct_fields : Json.Field.Distinct fields := by
  decide

/-- A heading mode is read back, by whichever of the ways to name its kind. -/
theorem ofJson?_toJson (naming : Naming) {mode : HeadingMode Float}
    (h : ∀ x ∈ mode.numbers, Durable x) : ofJson? naming mode.toJson = some mode := by
  cases mode with
  | auto =>
      have hrecord := Json.record_object _ (j := toJson .auto) rfl 1 rfl distinct_fields
      simp only [toJson] at hrecord ⊢
      rw [ofJson?, hrecord]
      rfl
  | manual degrees =>
      have hrecord :=
        Json.record_object _ (j := toJson (.manual degrees)) rfl 2 rfl distinct_fields
      have hdegrees := (h degrees List.mem_cons_self).float?_ofFloat
      simp only [toJson] at hrecord ⊢
      rw [ofJson?, hrecord]
      show ofKind? .manual (some (Json.ofFloat degrees)) = _
      rw [ofKind?, Option.bind_some, hdegrees]
      rfl

end HeadingMode

/-! ### Waypoints -/

namespace Waypoint

/-- The numbers of a waypoint, in the order they are written. -/
def numbers (w : Waypoint Float) : List Float :=
  [w.target.position.lat, w.target.position.lon, w.target.altitude, w.target.time]
    ++ w.target.headingMode.numbers ++ [w.leg.heading, w.leg.speed, w.leg.course]

/-- What holds of all numbers of a waypoint, number by number. -/
theorem forall_mem_numbers {w : Waypoint Float} {P : Float → Prop} :
    (∀ x ∈ w.numbers, P x) ↔
      (P w.target.position.lat ∧ P w.target.position.lon ∧ P w.target.altitude ∧ P w.target.time)
        ∧ (∀ x ∈ w.target.headingMode.numbers, P x)
        ∧ P w.leg.heading ∧ P w.leg.speed ∧ P w.leg.course := by
  simp [numbers, or_imp, forall_and, and_assoc]

/-- A waypoint can be written, with `null` for numbers that are not finite. -/
theorem writable_toJson {w : Waypoint Float}
    (h : ∀ x ∈ w.numbers, x.isFinite = true → Json.ReadsBack x) : Writable w.toJson := by
  obtain ⟨⟨hlat, hlon, haltitude, htime⟩, -, hheading, hspeed, hcourse⟩ :=
    forall_mem_numbers.mp fun x hx => Json.writable_ofFloat (h x hx)
  have hmode := HeadingMode.writable_toJson (forall_mem_numbers.mp h).2.1
  have hpeer : ∀ member ∈ (w.leg.peer.map fun id => ("leg_peer", id.toJson)).toList,
      Writable member.2 := by
    cases w.leg.peer with
    | none => exact fun _ hmember => nomatch hmember
    | some id => simpa using show Writable id.toJson from .string id.toText
  refine .object ?_
  rw [List.forall_mem_append]
  refine ⟨?_, hpeer⟩
  simp only [List.forall_mem_cons]
  exact ⟨.string _, .string _, hlat, hlon, haltitude, htime, hmode, hheading, hspeed, .bool _,
    hcourse, fun _ hmember => nomatch hmember⟩

/-- The fields of a waypoint are distinct. -/
theorem distinct_fields : Json.Field.Distinct fields := by
  decide

/-- The record of a written waypoint holds its members. -/
theorem exists_record_toJson (w : Waypoint Float) :
    ∃ members, Json.record fields w.toJson = some ⟨members⟩ ∧ w.toJson = .object members := by
  -- The last field is written when there is a peer.
  cases hpeer : w.leg.peer with
  | none => exact ⟨_, Json.record_object _ rfl 11 (by rw [hpeer]; rfl) distinct_fields, rfl⟩
  | some peer => exact ⟨_, Json.record_object _ rfl 12 (by rw [hpeer]; rfl) distinct_fields, rfl⟩

/-- The record of a written waypoint gives the waypoint, and says that it has an
identifier. -/
theorem record_toJson (naming : HeadingMode.Naming) (id : WaypointId) {w : Waypoint Float}
    (h : ∀ x ∈ w.numbers, Durable x) :
    ∃ r, Json.record fields w.toJson = some r ∧ ofRecord? naming id r = some w
      ∧ (r.get? "id").isSome = true := by
  obtain ⟨⟨hlat, hlon, haltitude, htime⟩, -, hheading, hspeed, hcourse⟩ :=
    forall_mem_numbers.mp fun x hx => (h x hx).float?_ofFloat
  have hmode := HeadingMode.ofJson?_toJson naming (forall_mem_numbers.mp h).2.1
  have hid := WaypointId.ofJson?_toJson w.target.id
  -- The peer comes last, so looking for it comes down to what stands behind the other members.
  have hpeer : Json.Record.optional ⟨(w.leg.peer.map fun id => ("leg_peer", id.toJson)).toList⟩
      "leg_peer" WaypointId.ofJson? = some w.leg.peer := by
    cases w.leg.peer with
    | none => rfl
    | some peer =>
        show (WaypointId.ofJson? peer.toJson).map some = _
        rw [WaypointId.ofJson?_toJson]
        rfl
  obtain ⟨members, hrecord, hmembers⟩ := exists_record_toJson w
  obtain rfl := Json.object.inj hmembers
  refine ⟨_, hrecord, ?_, rfl⟩
  simp [ofRecord?, Json.Record.required, Json.Record.getD, Json.Record.get?, List.lookup_cons,
    Json.Record.optional_cons_of_ne, Json.string?, Json.bool?, hlat, hlon, haltitude, htime,
    hmode, hheading, hspeed, hcourse, hpeer, hid]

/-- A waypoint is read back, and no fresh identifier is given away. -/
theorem ofJson?_toJson (naming : HeadingMode.Naming) (ids : FreshIds) (next : Nat)
    {w : Waypoint Float} (h : ∀ x ∈ w.numbers, Durable x) :
    ofJson? naming ids next w.toJson = some (w, next) := by
  obtain ⟨r, hrecord, hwaypoint, hid⟩ := record_toJson naming (ids next) h
  rw [ofJson?, hrecord]
  simp [hwaypoint, hid]

/-! ### Trajectory files -/

/-- Waypoints are read back one by one, and no fresh identifier is given away. -/
theorem listOfJson?_map_toJson (naming : HeadingMode.Naming) (ids : FreshIds) (next : Nat)
    {waypoints : List (Waypoint Float)} (h : ∀ w ∈ waypoints, ∀ x ∈ w.numbers, Durable x) :
    listOfJson? naming ids next (waypoints.map toJson) = some (waypoints, next) := by
  induction waypoints with
  | nil => rfl
  | cons w waypoints ih =>
      rw [List.forall_mem_cons] at h
      rw [List.map_cons, listOfJson?, ofJson?_toJson naming ids next h.1]
      simp [ih h.2]

/-- There is nothing below a number. -/
theorem depth_ofFloat (x : Float) : (Json.ofFloat x).depth = 0 := by
  unfold Json.ofFloat
  split <;> rfl

/-- Below a waypoint there is its heading mode, and nothing below that. -/
theorem depth_toJson_le (w : Waypoint Float) : w.toJson.depth ≤ 2 := by
  have hmode : w.target.headingMode.toJson.depth ≤ 1 := by
    cases w.target.headingMode <;>
      simp [HeadingMode.toJson, Json.depth, Json.membersDepth, depth_ofFloat]
  have hpeer : ∀ member ∈ (w.leg.peer.map fun id => ("leg_peer", id.toJson)).toList,
      member.2.depth ≤ 1 := by
    cases w.leg.peer <;> simp [WaypointId.toJson, Json.depth]
  refine Nat.succ_le_succ (Json.membersDepth_le ?_)
  rw [List.forall_mem_append]
  refine ⟨?_, hpeer⟩
  simp [depth_ofFloat, hmode, WaypointId.toJson, Json.depth]

/-- Waypoints can be written if their numbers are read back or not finite. -/
theorem writable_listToJson {waypoints : List (Waypoint Float)}
    (h : ∀ w ∈ waypoints, ∀ x ∈ w.numbers, x.isFinite = true → Json.ReadsBack x) :
    Writable (listToJson waypoints) := by
  refine .array ?_
  rw [List.forall_mem_map]
  exact fun w hw => writable_toJson (h w hw)

/-- Written waypoints are a trajectory file, and its items are their documents. Blanks may
follow. -/
theorem listOfText?_text_eq (ids : FreshIds) (style : Json.Style)
    {waypoints : List (Waypoint Float)}
    (h : ∀ w ∈ waypoints, ∀ x ∈ w.numbers, x.isFinite = true → Json.ReadsBack x)
    (blanks : List Char) (hblanks : ∀ c ∈ blanks, Json.Token.isBlank c = true) :
    listOfText? ids ((listToJson waypoints).text style ++ String.ofList blanks)
      = (listOfJson? .byNameOrNumber ids 0 (waypoints.map toJson)).map Prod.fst := by
  have hitems : Json.itemsDepth (waypoints.map toJson) ≤ 2 := by
    refine Json.itemsDepth_le ?_
    rw [List.forall_mem_map]
    exact fun w _ => depth_toJson_le w
  have hdepth : (listToJson waypoints).depth ≤ Json.maxDepth :=
    Nat.le_trans (Nat.succ_le_succ hitems) (by decide)
  rw [listOfText?, (writable_listToJson h).readStrict_text hdepth style blanks hblanks]
  simp only [listToJson, itemsOfFile?, Option.bind_eq_bind, Option.bind_some]
  cases listOfJson? .byNameOrNumber ids 0 (waypoints.map toJson) <;> rfl

/-- Written waypoints are a trajectory file that holds them. -/
theorem listOfText?_text (ids : FreshIds) (style : Json.Style) {waypoints : List (Waypoint Float)}
    (h : ∀ w ∈ waypoints, ∀ x ∈ w.numbers, Durable x) (blanks : List Char)
    (hblanks : ∀ c ∈ blanks, Json.Token.isBlank c = true) :
    listOfText? ids ((listToJson waypoints).text style ++ String.ofList blanks)
      = some waypoints := by
  rw [listOfText?_text_eq ids style (fun w hw x hx _ => (h w hw x hx).2) blanks hblanks,
    listOfJson?_map_toJson .byNameOrNumber ids 0 h]
  rfl

end Waypoint

end FlightPlan
