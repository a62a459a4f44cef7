import FlightPlan.Document.Waypoint
import FlightPlan.Proofs.Json.Record
import FlightPlan.Proofs.WaypointId

/-!
# `FlightPlan.Proofs.Document.Layout`: a waypoint is what its document says

A waypoint can be written in many ways: its members in any order, two of them under other names,
most of them left out, and others among them that mean nothing here. What it says is all the same a
matter of twelve lists of values, those given for its fields.

`IsSaidBy` is the meaning of an object, one line for each part of a waypoint: the field's names,
what its value means, and what stands for it when there is none. `IsReadable` is the same table
without the waypoint: `parts` lists names, need and type of each field. `HeadingMode.Means` is the
meaning of the one value that has members of its own.

Reading is then exact in three steps: for a heading mode (`HeadingMode.ofJson?_eq_some_iff`), for a
record (`ofRecord?_eq_some_iff`), and for an object (`ofJson?_object_eq_some_iff`). That the layout
makes no difference follows without another look at how reading goes (`reads_what_is_said`): two
layouts give the same values for each field (`Json.Relaid.perm_underAny`), so they say the same
waypoints (`IsSaidBy.relaid`).
-/

set_option autoImplicit false

namespace FlightPlan

open Json (Field Nullable Reads Relaid IsNumber IsText IsTruth underAny)

/-- The value is the text of this identifier. -/
inductive WaypointId.Means : Json → WaypointId → Prop
  | text {s : String} {id : WaypointId} (h : read s.toList = some id) : Means (.string s) id

/-- A value is read as an identifier when it means that one. -/
theorem WaypointId.ofJson?_eq_some_iff (j : Json) (id : WaypointId) :
    ofJson? j = some id ↔ Means j id := by
  constructor
  · intro h
    cases j with
    | string s => exact .text h
    | _ => contradiction
  · rintro ⟨h⟩
    exact h

/-! ### Heading modes -/

namespace HeadingMode

/-- What a kind says with the values given for the angle: an automatic heading has no angle, and a
manual one has a number. -/
inductive Says : Kind → List Json → HeadingMode Float → Prop
  | auto : Says .auto [] .auto
  | autoNull : Says .auto [.null] .auto
  | manual (n : Json.Number) : Says .manual [.number n] (.manual n.toFloat)

/-- The value is an object that gives a kind and perhaps an angle, or an array of both, and says
this heading mode. -/
inductive Means (naming : Naming) : Json → HeadingMode Float → Prop
  | object {members : List (String × Json)} {tag : Json} {kind : Kind} {mode : HeadingMode Float}
      (htag : underAny ["mode"] members = [tag]) (hkind : tag.name? = some kind.text)
      (hmeant : Says kind (underAny ["heading_deg"] members) mode) :
      Means naming (.object members) mode
  | array {tag angle : Json} {kind : Kind} {mode : HeadingMode Float}
      (hkind : Kind.ofItem? naming tag = some kind) (hmeant : Says kind [angle] mode) :
      Means naming (.array [tag, angle]) mode

/-- The fields of a heading mode do not share a name. -/
theorem apart_fields : Field.Apart fields := by decide

/-- A kind is said together with one value at most. -/
theorem Says.length_le {kind : Kind} {values : List Json} {mode : HeadingMode Float}
    (h : Says kind values mode) : values.length ≤ 1 := by
  cases h <;> simp

/-- Kind and value are read as a heading mode when they say it. -/
theorem ofKind?_eq_some_iff (kind : Kind) {values : List Json} (hvalues : values.length ≤ 1)
    (mode : HeadingMode Float) :
    ofKind? kind values.head? = some mode ↔ Says kind values mode := by
  constructor
  · intro h
    match kind, values, hvalues with
    | .auto, [], _ =>
        obtain rfl := Option.some.inj h
        exact .auto
    | .auto, [.null], _ =>
        obtain rfl := Option.some.inj h
        exact .autoNull
    | .manual, [angle], _ =>
        obtain ⟨degrees, hdegrees, rfl⟩ := Option.map_eq_some_iff.mp h
        obtain ⟨n⟩ := (Json.float?_eq_some_iff angle degrees).mp hdegrees
        exact .manual n
  · rintro (_ | _ | n) <;> rfl

/-- A text is read as a kind when it is the text of that kind. -/
theorem Kind.ofText?_eq_some_iff (s : String) (kind : Kind) :
    ofText? s = some kind ↔ s = kind.text := by
  constructor
  · intro h
    have hname := List.find?_some h
    exact (beq_iff_eq.mp hname).symm
  · rintro rfl
    cases kind <;> rfl

/-- An object is read as a heading mode when it gives a kind once, and with it what the kind
says. -/
theorem ofJson?_object_eq_some_iff (naming : Naming) (members : List (String × Json))
    (mode : HeadingMode Float) :
    ofJson? naming (.object members) = some mode ↔
      ∃ tag kind, underAny ["mode"] members = [tag] ∧ tag.name? = some kind.text ∧
        Says kind (underAny ["heading_deg"] members) mode := by
  have htag {r : Json.Record} (hr : Json.record fields (.object members) = some r)
      (name : String) :
      r.required "mode" Json.name? = some name ↔
        Reads (·.name? = some ·) (fun _ => False) (underAny ["mode"] members) name :=
    Json.Record.required_eq_some_iff apart_fields hr (f := Json.field "mode") (by simp [fields])
      fun _ _ => Iff.rfl
  have hangle {r : Json.Record} (hr : Json.record fields (.object members) = some r) :
      r.get? "heading_deg" = (underAny ["heading_deg"] members).head? :=
    Json.get?_of_record apart_fields hr (f := Json.field "heading_deg") (by simp [fields])
  constructor
  · intro h
    obtain ⟨r, hr, h⟩ := Option.bind_eq_some_iff.mp h
    obtain ⟨name, hname, h⟩ := Option.bind_eq_some_iff.mp h
    obtain ⟨kind, hkind, hmode⟩ := Option.bind_eq_some_iff.mp h
    obtain rfl := (Kind.ofText?_eq_some_iff name kind).mp hkind
    have hlength : (underAny ["heading_deg"] members).length ≤ 1 :=
      Json.length_given_le apart_fields hr (f := Json.field "heading_deg") (by simp [fields])
    rw [hangle hr, ofKind?_eq_some_iff kind hlength] at hmode
    generalize hgiven : underAny ["mode"] members = given at htag
    obtain ⟨hname⟩ | ⟨⟨⟩⟩ := (htag hr kind.text).mp hname
    exact ⟨_, kind, rfl, hname, hmode⟩
  · rintro ⟨tag, kind, hgiven, hname, hmeant⟩
    obtain ⟨r, hr⟩ : ∃ r, Json.record fields (.object members) = some r := by
      refine (Json.exists_record_object_iff apart_fields).mpr ?_
      rw [fields, List.forall_mem_cons, List.forall_mem_singleton]
      exact ⟨Nat.le_of_eq (congrArg List.length hgiven), hmeant.length_le⟩
    have hrequired : r.required "mode" Json.name? = some kind.text := by
      rw [htag hr, hgiven]
      exact .given hname
    have hkind := (Kind.ofText?_eq_some_iff kind.text kind).mpr rfl
    have hmode := (ofKind?_eq_some_iff kind hmeant.length_le mode).mpr hmeant
    rw [← hangle hr] at hmode
    exact Option.bind_eq_some_iff.mpr ⟨r, hr, Option.bind_eq_some_iff.mpr
      ⟨_, hrequired, Option.bind_eq_some_iff.mpr ⟨kind, hkind, hmode⟩⟩⟩

/-- A heading mode is read from exactly the values that say it. -/
theorem ofJson?_eq_some_iff (naming : Naming) (j : Json) (mode : HeadingMode Float) :
    ofJson? naming j = some mode ↔ Means naming j mode := by
  constructor
  · intro h
    match j with
    | .array [_, angle] =>
        obtain ⟨kind, hkind, hmode⟩ := Option.bind_eq_some_iff.mp h
        have hlength : [angle].length ≤ 1 := Nat.le_refl 1
        exact .array hkind ((ofKind?_eq_some_iff kind hlength mode).mp hmode)
    | .object members =>
        obtain ⟨tag, kind, htag, hkind, hmeant⟩ := (ofJson?_object_eq_some_iff _ _ _).mp h
        exact .object htag hkind hmeant
  · rintro (⟨htag, hkind, hmeant⟩ | ⟨hkind, hmeant⟩)
    · exact (ofJson?_object_eq_some_iff _ _ _).mpr ⟨_, _, htag, hkind, hmeant⟩
    · exact Option.bind_eq_some_iff.mpr
        ⟨_, hkind, (ofKind?_eq_some_iff _ hmeant.length_le mode).mpr hmeant⟩

/-- A heading mode does not depend on the layout of its members. -/
theorem ofJson?_relaid (naming : Naming) {members others : List (String × Json)}
    (h : Relaid fields members others) :
    ofJson? naming (.object others) = ofJson? naming (.object members) := by
  have hmode := h.perm_underAny apart_fields (f := Json.field "mode") (by simp [fields])
  have hangle := h.perm_underAny apart_fields (f := Json.field "heading_deg") (by simp [fields])
  -- The two sides differ by permutations only, so one direction is enough.
  have himp {given given' : List Json} {values values' : List Json} (hgiven : given.Perm given')
      (hvalues : values.Perm values') (mode : HeadingMode Float) :
      (∃ tag kind, given = [tag] ∧ tag.name? = some kind.text ∧ Says kind values mode) →
        ∃ tag kind, given' = [tag] ∧ tag.name? = some kind.text ∧ Says kind values' mode := by
    rintro ⟨tag, kind, rfl, hkind, hmeant⟩
    rw [Json.eq_of_perm hvalues hmeant.length_le] at hmeant
    exact ⟨tag, kind, hgiven.singleton_eq.symm, hkind, hmeant⟩
  ext mode
  rw [ofJson?_object_eq_some_iff, ofJson?_object_eq_some_iff]
  exact ⟨himp hmode.symm hangle.symm mode, himp hmode hangle mode⟩

end HeadingMode

/-! ### Waypoints -/

namespace Waypoint

/-- The members of an object say this waypoint: each of its parts is what the one value of its
field means, or what stands for it when there is none. The position, altitude and time have to be
given. -/
structure IsSaidBy (naming : HeadingMode.Naming) (fresh : WaypointId)
    (members : List (String × Json)) (w : Waypoint Float) : Prop where
  id : Reads WaypointId.Means (· = fresh) (underAny ["id"] members) w.target.id
  name : Reads IsText (· = "") (underAny ["name"] members) w.target.name
  lat : Reads IsNumber (fun _ => False) (underAny ["lat"] members) w.target.position.lat
  lon : Reads IsNumber (fun _ => False) (underAny ["lon"] members) w.target.position.lon
  altitude : Reads IsNumber (fun _ => False) (underAny ["altitude_m", "alt", "altitude"] members)
    w.target.altitude
  time : Reads IsNumber (fun _ => False)
    (underAny ["time_from_start_s", "time_from_start"] members) w.target.time
  headingMode : Reads (HeadingMode.Means naming) (· = .auto) (underAny ["heading_mode"] members)
    w.target.headingMode
  heading : Reads IsNumber (· = 0.0) (underAny ["heading_deg"] members) w.leg.heading
  speed : Reads IsNumber (· = 0.0) (underAny ["estimated_speed_mps"] members) w.leg.speed
  feasible : Reads IsTruth (· = false) (underAny ["speed_feasible"] members) w.leg.feasible
  course : Reads IsNumber (· = 0.0) (underAny ["calculated_heading_deg"] members) w.leg.course
  peer : Reads (Nullable WaypointId.Means) (· = none) (underAny ["leg_peer"] members) w.leg.peer

variable {naming : HeadingMode.Naming} {ids : FreshIds} {next : Nat} {fresh : WaypointId}
  {members others : List (String × Json)} {w : Waypoint Float}

/-- The fields of a waypoint do not share a name. -/
theorem apart_fields : Field.Apart fields := by decide

/-- A record is a waypoint exactly when what it is read from says so. -/
theorem ofRecord?_eq_some_iff {r : Json.Record}
    (hr : Json.record fields (.object members) = some r) :
    ofRecord? naming fresh r = some w ↔ IsSaidBy naming fresh members w := by
  have hgetD {α : Type} (f : Field) (hf : f ∈ fields) {decode : Json → Option α}
      {means : Json → α → Prop} (hdecode : ∀ j a, decode j = some a ↔ means j a) (default a : α) :
      r.getD f.name decode default = some a ↔
        Reads means (· = default) (underAny f.names members) a :=
    Json.Record.getD_eq_some_iff apart_fields hr hf hdecode
  have hrequired (f : Field) (hf : f ∈ fields) (x : Float) :
      r.required f.name Json.float? = some x ↔
        Reads IsNumber (fun _ => False) (underAny f.names members) x :=
    Json.Record.required_eq_some_iff apart_fields hr hf Json.float?_eq_some_iff
  -- One line for each field, in the order in which they are read.
  have hid := hgetD (Json.field "id") (by simp [fields]) WaypointId.ofJson?_eq_some_iff fresh
  have hname := hgetD (Json.field "name") (by simp [fields]) Json.string?_eq_some_iff ""
  have hlat := hrequired (Json.field "lat") (by simp [fields])
  have hlon := hrequired (Json.field "lon") (by simp [fields])
  have haltitude := hrequired ⟨"altitude_m", ["alt", "altitude"]⟩ (by simp [fields])
  have htime := hrequired ⟨"time_from_start_s", ["time_from_start"]⟩ (by simp [fields])
  have hmode := hgetD (Json.field "heading_mode") (by simp [fields])
    (HeadingMode.ofJson?_eq_some_iff naming) .auto
  have hheading := hgetD (Json.field "heading_deg") (by simp [fields]) Json.float?_eq_some_iff 0.0
  have hspeed :=
    hgetD (Json.field "estimated_speed_mps") (by simp [fields]) Json.float?_eq_some_iff 0.0
  have hfeasible :=
    hgetD (Json.field "speed_feasible") (by simp [fields]) Json.bool?_eq_some_iff false
  have hcourse :=
    hgetD (Json.field "calculated_heading_deg") (by simp [fields]) Json.float?_eq_some_iff 0.0
  have hpeer (peer : Option WaypointId) : r.optional "leg_peer" WaypointId.ofJson? = some peer ↔
      Reads (Nullable WaypointId.Means) (· = none) (underAny ["leg_peer"] members) peer :=
    Json.Record.optional_eq_some_iff apart_fields hr (f := Json.field "leg_peer")
      (by simp [fields]) WaypointId.ofJson?_eq_some_iff rfl
  simp only [ofRecord?, Option.bind_eq_bind, Option.bind_eq_some_iff]
  constructor
  · rintro ⟨id, h₁, name, h₂, lat, h₃, lon, h₄, altitude, h₅, time, h₆, mode, h₇, heading, h₈,
      speed, h₉, feasible, h₁₀, course, h₁₁, peer, h₁₂, h⟩
    obtain rfl := Option.some.inj h
    exact {
      id := (hid id).mp h₁
      name := (hname name).mp h₂
      lat := (hlat lat).mp h₃
      lon := (hlon lon).mp h₄
      altitude := (haltitude altitude).mp h₅
      time := (htime time).mp h₆
      headingMode := (hmode mode).mp h₇
      heading := (hheading heading).mp h₈
      speed := (hspeed speed).mp h₉
      feasible := (hfeasible feasible).mp h₁₀
      course := (hcourse course).mp h₁₁
      peer := (hpeer peer).mp h₁₂ }
  · intro h
    exact ⟨_, (hid _).mpr h.id, _, (hname _).mpr h.name, _, (hlat _).mpr h.lat,
      _, (hlon _).mpr h.lon, _, (haltitude _).mpr h.altitude, _, (htime _).mpr h.time,
      _, (hmode _).mpr h.headingMode, _, (hheading _).mpr h.heading, _, (hspeed _).mpr h.speed,
      _, (hfeasible _).mpr h.feasible, _, (hcourse _).mpr h.course, _, (hpeer _).mpr h.peer, rfl⟩

/-- No field is given twice in what says a waypoint. -/
theorem IsSaidBy.length_le (h : IsSaidBy naming fresh members w) :
    ∀ f ∈ fields, (underAny f.names members).length ≤ 1 := by
  simp only [fields, List.forall_mem_cons, List.not_mem_nil, false_implies, implies_true, and_true]
  exact ⟨h.id.length_le, h.name.length_le, h.lat.length_le, h.lon.length_le, h.altitude.length_le,
    h.time.length_le, h.headingMode.length_le, h.heading.length_le, h.speed.length_le,
    h.feasible.length_le, h.course.length_le, h.peer.length_le⟩

/-- An object is read as the waypoint it says, and a fresh identifier is used up when none is
given. -/
theorem ofJson?_object_eq_some_iff {after : Nat} :
    ofJson? naming ids next (.object members) = some (w, after) ↔
      IsSaidBy naming (ids next) members w ∧
        after = if underAny ["id"] members = [] then next + 1 else next := by
  have hafter {r : Json.Record} (hr : Json.record fields (.object members) = some r) :
      (if (r.get? "id").isSome then next else next + 1) =
        if underAny ["id"] members = [] then next + 1 else next := by
    have hid : r.get? "id" = (underAny ["id"] members).head? :=
      Json.get?_of_record apart_fields hr (f := Json.field "id") (by simp [fields])
    rw [hid]
    cases underAny ["id"] members <;> rfl
  constructor
  · intro h
    obtain ⟨r, hr, h⟩ := Option.bind_eq_some_iff.mp h
    obtain ⟨waypoint, hwaypoint, h⟩ := Option.bind_eq_some_iff.mp h
    obtain ⟨rfl, rfl⟩ := Prod.mk.inj (Option.some.inj h)
    exact ⟨(ofRecord?_eq_some_iff hr).mp hwaypoint, hafter hr⟩
  · rintro ⟨hsaid, rfl⟩
    obtain ⟨r, hr⟩ := (Json.exists_record_object_iff apart_fields).mpr hsaid.length_le
    have hwaypoint := (ofRecord?_eq_some_iff hr).mpr hsaid
    rw [← hafter hr]
    exact Option.bind_eq_some_iff.mpr ⟨r, hr, Option.bind_eq_some_iff.mpr ⟨w, hwaypoint, rfl⟩⟩

/-- A field of a waypoint as a document may give it. -/
structure Part where
  /-- The names that it is read under. -/
  keys : List String
  /-- It must be given. -/
  needed : Bool
  /-- The values of its type. -/
  admits : Json → Prop

/-- The fields of a waypoint. -/
def parts (naming : HeadingMode.Naming) : List Part :=
  let number (j : Json) : Prop := ∃ x, IsNumber j x
  [⟨["id"], false, fun j => ∃ id, WaypointId.Means j id⟩,
    ⟨["name"], false, fun j => ∃ s, IsText j s⟩,
    ⟨["lat"], true, number⟩,
    ⟨["lon"], true, number⟩,
    ⟨["altitude_m", "alt", "altitude"], true, number⟩,
    ⟨["time_from_start_s", "time_from_start"], true, number⟩,
    ⟨["heading_mode"], false, fun j => ∃ mode, HeadingMode.Means naming j mode⟩,
    ⟨["heading_deg"], false, number⟩,
    ⟨["estimated_speed_mps"], false, number⟩,
    ⟨["speed_feasible"], false, fun j => ∃ b, IsTruth j b⟩,
    ⟨["calculated_heading_deg"], false, number⟩,
    ⟨["leg_peer"], false, fun j => ∃ peer, Nullable WaypointId.Means j peer⟩]

/-- The values given for a part: no more than one, one if it is needed, and of its type. -/
structure Part.Fits (part : Part) (values : List Json) : Prop where
  once : values.length ≤ 1
  given : part.needed = true → values ≠ []
  typed : ∀ value ∈ values, part.admits value

/-- The members fit the fields of a waypoint. -/
def IsReadable (naming : HeadingMode.Naming) (members : List (String × Json)) : Prop :=
  ∀ part ∈ parts naming, part.Fits (underAny part.keys members)

/-- Something comes of the values given for a part exactly when they fit it. A part is needed when
nothing stands for it. -/
theorem exists_reads_iff_fits {α : Type} {means : Json → α → Prop} {standsFor : α → Prop}
    {keys : List String} {needed : Bool} {values : List Json}
    (hneeded : needed = true ↔ ¬ ∃ a, standsFor a) :
    (∃ a, Reads means standsFor values a) ↔
      Part.Fits ⟨keys, needed, fun j => ∃ a, means j a⟩ values := by
  rw [Json.exists_reads_iff]
  constructor
  · rintro ⟨hlength, hnil, htyped⟩
    exact ⟨hlength, fun h hvalues => hneeded.mp h (hnil hvalues), htyped⟩
  · rintro ⟨hlength, hgiven, htyped⟩
    refine ⟨hlength, fun hvalues => ?_, htyped⟩
    apply Classical.not_not.mp
    intro h
    exact hgiven (hneeded.mpr h) hvalues

/-- Members say a waypoint exactly when they fit its fields. -/
theorem exists_isSaidBy_iff :
    (∃ w, IsSaidBy naming fresh members w) ↔ IsReadable naming members := by
  simp only [IsReadable, parts, List.forall_mem_cons, List.not_mem_nil, false_implies,
    implies_true, and_true]
  have hfits {α : Type} {means : Json → α → Prop} {keys : List String} (default : α) :
      (∃ a, Reads means (· = default) (underAny keys members) a) ↔
        Part.Fits ⟨keys, false, fun j => ∃ a, means j a⟩ (underAny keys members) :=
    exists_reads_iff_fits (by simp)
  have hfits' {keys : List String} :
      (∃ x, Reads IsNumber (fun _ => False) (underAny keys members) x) ↔
        Part.Fits ⟨keys, true, fun j => ∃ x, IsNumber j x⟩ (underAny keys members) :=
    exists_reads_iff_fits (by simp)
  constructor
  · rintro ⟨w, h⟩
    exact ⟨(hfits fresh).mp ⟨_, h.id⟩, (hfits "").mp ⟨_, h.name⟩, hfits'.mp ⟨_, h.lat⟩,
      hfits'.mp ⟨_, h.lon⟩, hfits'.mp ⟨_, h.altitude⟩, hfits'.mp ⟨_, h.time⟩,
      (hfits .auto).mp ⟨_, h.headingMode⟩, (hfits 0.0).mp ⟨_, h.heading⟩,
      (hfits 0.0).mp ⟨_, h.speed⟩, (hfits false).mp ⟨_, h.feasible⟩, (hfits 0.0).mp ⟨_, h.course⟩,
      (hfits none).mp ⟨_, h.peer⟩⟩
  · rintro ⟨hid, hname, hlat, hlon, haltitude, htime, hmode, hheading, hspeed, hfeasible, hcourse,
      hpeer⟩
    obtain ⟨id, hid⟩ := (hfits fresh).mpr hid
    obtain ⟨name, hname⟩ := (hfits "").mpr hname
    obtain ⟨lat, hlat⟩ := hfits'.mpr hlat
    obtain ⟨lon, hlon⟩ := hfits'.mpr hlon
    obtain ⟨altitude, haltitude⟩ := hfits'.mpr haltitude
    obtain ⟨time, htime⟩ := hfits'.mpr htime
    obtain ⟨mode, hmode⟩ := (hfits .auto).mpr hmode
    obtain ⟨heading, hheading⟩ := (hfits 0.0).mpr hheading
    obtain ⟨speed, hspeed⟩ := (hfits 0.0).mpr hspeed
    obtain ⟨feasible, hfeasible⟩ := (hfits false).mpr hfeasible
    obtain ⟨course, hcourse⟩ := (hfits 0.0).mpr hcourse
    obtain ⟨peer, hpeer⟩ := (hfits none).mpr hpeer
    exact ⟨⟨⟨id, name, ⟨lat, lon⟩, altitude, time, mode⟩,
      ⟨heading, speed, feasible, course, peer⟩⟩, hid, hname, hlat, hlon, haltitude, htime, hmode,
      hheading, hspeed, hfeasible, hcourse, hpeer⟩

/-- What else says a waypoint: members that give the same values for all fields but the heading
mode, and there a value for the same heading modes. -/
theorem IsSaidBy.transfer (h : IsSaidBy naming fresh members w)
    (hothers : ∀ f ∈ fields, f.name ≠ "heading_mode" →
      (underAny f.names members).Perm (underAny f.names others))
    (hmode : Reads (HeadingMode.Means naming) (· = .auto) (underAny ["heading_mode"] members)
        w.target.headingMode →
      Reads (HeadingMode.Means naming) (· = .auto) (underAny ["heading_mode"] others)
        w.target.headingMode) :
    IsSaidBy naming fresh others w := by
  simp only [fields, List.forall_mem_cons, List.not_mem_nil, false_implies, implies_true, and_true]
    at hothers
  obtain ⟨hid, hname, hlat, hlon, haltitude, htime, -, hheading, hspeed, hfeasible, hcourse,
    hpeer⟩ := hothers
  exact {
    id := (Json.reads_congr (hid (by decide))).mp h.id
    name := (Json.reads_congr (hname (by decide))).mp h.name
    lat := (Json.reads_congr (hlat (by decide))).mp h.lat
    lon := (Json.reads_congr (hlon (by decide))).mp h.lon
    altitude := (Json.reads_congr (haltitude (by decide))).mp h.altitude
    time := (Json.reads_congr (htime (by decide))).mp h.time
    headingMode := hmode h.headingMode
    heading := (Json.reads_congr (hheading (by decide))).mp h.heading
    speed := (Json.reads_congr (hspeed (by decide))).mp h.speed
    feasible := (Json.reads_congr (hfeasible (by decide))).mp h.feasible
    course := (Json.reads_congr (hcourse (by decide))).mp h.course
    peer := (Json.reads_congr (hpeer (by decide))).mp h.peer }

/-- Another layout of the members says the same waypoints. -/
theorem IsSaidBy.relaid (hw : IsSaidBy naming fresh members w) (h : Relaid fields members others) :
    IsSaidBy naming fresh others w := by
  have hperm := fun f (hf : f ∈ fields) => h.perm_underAny apart_fields hf
  refine hw.transfer (fun f hf _ => hperm f hf) ?_
  exact (Json.reads_congr (hperm (Json.field "heading_mode") (by simp [fields]))).mp

/-- Another value for the same heading modes says the same waypoints. -/
theorem IsSaidBy.of_headingMode {j j' : Json}
    (hw : IsSaidBy naming fresh (("heading_mode", j) :: members) w)
    (h : ∀ mode, HeadingMode.Means naming j mode → HeadingMode.Means naming j' mode) :
    IsSaidBy naming fresh (("heading_mode", j') :: members) w := by
  refine hw.transfer (fun f hf hname => ?_) ?_
  · -- No other field is read under the key of the heading mode.
    have hnot : "heading_mode" ∉ f.names := by
      intro hmem
      have hmode : Json.field "heading_mode" ∈ fields := by simp [fields]
      obtain rfl := Json.eq_of_mem_names apart_fields hf hmode hmem List.mem_cons_self
      exact hname rfl
    rw [Json.underAny_cons, Json.underAny_cons, if_neg hnot, if_neg hnot]
  · rw [Json.underAny_cons, Json.underAny_cons, if_pos List.mem_cons_self,
      if_pos List.mem_cons_self]
    generalize underAny ["heading_mode"] members = more
    rintro ⟨hmeans⟩
    exact .given (h _ hmeans)

/-- Objects that say the same waypoints, and both give an identifier or both do not, are read the
same. -/
theorem ofJson?_object_congr
    (h : ∀ w, IsSaidBy naming (ids next) members w ↔ IsSaidBy naming (ids next) others w)
    (hid : underAny ["id"] members = [] ↔ underAny ["id"] others = []) :
    ofJson? naming ids next (.object others) = ofJson? naming ids next (.object members) := by
  ext ⟨w, after⟩
  rw [ofJson?_object_eq_some_iff, ofJson?_object_eq_some_iff]
  simp only [h, hid]

/-- A waypoint depends on what an object says, and not on how it is laid out.

The object is read as the waypoint that it says, and a fresh identifier is used up when none is
given. It is read exactly when its members fit the fields of a waypoint. Another layout of the
members, and of the members of a heading mode in it, makes no difference. An object that gives a
field twice is not read. -/
theorem reads_what_is_said (naming : HeadingMode.Naming) (ids : FreshIds) (next : Nat)
    (members : List (String × Json)) :
    (∀ w after, ofJson? naming ids next (.object members) = some (w, after) ↔
      IsSaidBy naming (ids next) members w ∧
        after = if underAny ["id"] members = [] then next + 1 else next) ∧
    ((ofJson? naming ids next (.object members)).isSome = true ↔ IsReadable naming members) ∧
    (∀ others, Relaid fields members others →
      ofJson? naming ids next (.object others) = ofJson? naming ids next (.object members)) ∧
    (∀ mode mode', Relaid HeadingMode.fields mode mode' →
      ofJson? naming ids next (.object (("heading_mode", .object mode') :: members)) =
        ofJson? naming ids next (.object (("heading_mode", .object mode) :: members))) ∧
    (∀ f ∈ fields, 2 ≤ (underAny f.names members).length →
      ofJson? naming ids next (.object members) = none) := by
  refine ⟨fun w after => ofJson?_object_eq_some_iff, ?_, ?_, ?_, ?_⟩
  · have hreadable : (∃ w, IsSaidBy naming (ids next) members w) ↔ IsReadable naming members :=
      exists_isSaidBy_iff
    rw [← hreadable, Option.isSome_iff_exists]
    constructor
    · rintro ⟨⟨w, after⟩, h⟩
      exact ⟨w, (ofJson?_object_eq_some_iff.mp h).1⟩
    · rintro ⟨w, h⟩
      exact ⟨(w, _), ofJson?_object_eq_some_iff.mpr ⟨h, rfl⟩⟩
  · intro others h
    have hid := h.perm_underAny apart_fields (f := Json.field "id") (by simp [fields])
    refine ofJson?_object_congr (fun w => ?_) ?_
    · exact ⟨fun hw => hw.relaid h, fun hw => hw.relaid h.symm⟩
    · constructor
      · intro hnil
        exact (hnil ▸ hid).nil_eq.symm
      · intro hnil
        exact (hnil ▸ hid).eq_nil
  · intro mode mode' h
    have hmeans (m : HeadingMode Float) : HeadingMode.Means naming (.object mode) m ↔
        HeadingMode.Means naming (.object mode') m := by
      rw [← HeadingMode.ofJson?_eq_some_iff, ← HeadingMode.ofJson?_eq_some_iff,
        HeadingMode.ofJson?_relaid naming h]
    refine ofJson?_object_congr (fun w => ?_) ?_
    · exact ⟨fun hw => hw.of_headingMode fun m => (hmeans m).mp,
        fun hw => hw.of_headingMode fun m => (hmeans m).mpr⟩
    · rw [Json.underAny_cons, Json.underAny_cons]
      simp
  · intro f hf htwice
    rw [Option.eq_none_iff_forall_ne_some]
    rintro ⟨w, after⟩ h
    have honce := (ofJson?_object_eq_some_iff.mp h).1.length_le f hf
    omega

/-- The members of a manual heading. -/
def manualMembers : List (String × Json) :=
  [("mode", .string "manual"), ("heading_deg", .number (.natural 90))]

/-- A position and a time. -/
def placeMembers : List (String × Json) :=
  [("lat", .number (.natural 36)), ("lon", .number (.natural 51)),
    ("time_from_start_s", .number (.natural 12))]

/-- A waypoint with the altitude under its own name. -/
def writtenMembers : List (String × Json) :=
  ("heading_mode", .object manualMembers) :: placeMembers ++
    [("altitude_m", .number (.natural 1210))]

/-- The same with the altitude under another name and in front, behind a member of no field. -/
def rewrittenMembers : List (String × Json) :=
  ("comment", .unrepresentable) :: ("alt", .number (.natural 1210)) ::
    ("heading_mode", .object manualMembers) :: placeMembers

/-- The one is laid out like the other, by moving a member, renaming it and adding one of no
field. -/
theorem relaid_rewritten : Relaid fields writtenMembers rewrittenMembers := by
  have haltitude : ⟨"altitude_m", ["alt", "altitude"]⟩ ∈ fields := by simp [fields]
  have hrenamed := Relaid.renamed haltitude (by decide : "altitude_m" ∈ _)
    (by decide : "alt" ∈ _) (.number (.natural 1210))
    (("heading_mode", .object manualMembers) :: placeMembers)
  exact ((Relaid.reordered (List.perm_append_singleton _ _)).trans hrenamed).trans
    (.extended "comment" .unrepresentable _ (by decide))

/-- Both are read, and read the same. Turning the members of the heading mode around changes
nothing either, and a second altitude makes the object unreadable. -/
theorem reads_what_is_said_rewritten :
    Relaid fields writtenMembers rewrittenMembers ∧
      (ofJson? .byName WaypointId.zeros 0 (.object writtenMembers)).isSome = true ∧
      ofJson? .byName WaypointId.zeros 0 (.object rewrittenMembers) =
        ofJson? .byName WaypointId.zeros 0 (.object writtenMembers) ∧
      ofJson? .byName WaypointId.zeros 0
          (.object (("heading_mode", .object manualMembers.reverse) :: writtenMembers.tail)) =
        ofJson? .byName WaypointId.zeros 0 (.object writtenMembers) ∧
      ofJson? .byName WaypointId.zeros 0 (.object (("altitude", .null) :: rewrittenMembers)) =
        none := by
  have hsaid := reads_what_is_said .byName WaypointId.zeros 0
  have hturned : Relaid HeadingMode.fields manualMembers manualMembers.reverse :=
    .reordered (List.reverse_perm _).symm
  refine ⟨relaid_rewritten, rfl, (hsaid writtenMembers).2.2.1 rewrittenMembers relaid_rewritten,
    (hsaid writtenMembers.tail).2.2.2.1 manualMembers manualMembers.reverse hturned, ?_⟩
  exact (hsaid _).2.2.2.2 ⟨"altitude_m", ["alt", "altitude"]⟩ (by simp [fields]) (by decide)

end Waypoint

end FlightPlan
