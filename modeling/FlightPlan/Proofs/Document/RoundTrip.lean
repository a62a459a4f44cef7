import FlightPlan.Document.Grid
import FlightPlan.Document.Limits
import FlightPlan.Document.Report
import FlightPlan.Json.Printer
import FlightPlan.Proofs.Document.Waypoint

/-!
# `FlightPlan.Proofs.Document.RoundTrip`: whatever is kept is read back

Four structures are kept in documents: waypoints, limits, reports and grids. For each
of them there is the list of its numbers, a theorem that its document can be written
(`writable_toJson`), and one that the document gives it back. Both need its numbers to
be durable, and its counts to be words.

`documents_read_back` joins each pair to the round trip through a text, in either style.
-/

set_option autoImplicit false

namespace FlightPlan

open Json (Durable Writable Style)

/-- Values that are read back one by one are read back as a list. -/
theorem Json.list?_map {α : Type} {decode : Json → Option α} {encode : α → Json} {values : List α}
    (h : ∀ a ∈ values, decode (encode a) = some a) :
    Json.list? decode (.array (values.map encode)) = some values := by
  rw [list?]
  induction values with
  | nil => rfl
  | cons a values ih =>
      rw [List.forall_mem_cons] at h
      rw [List.map_cons, List.mapM_cons, h.1, ih h.2]
      rfl

/-! ### Limits -/

namespace Limits

/-- The numbers of limits, in the order they are written. -/
def numbers (limits : Limits Float) : List Float :=
  Name.all.map limits.get

/-- Limits with durable numbers have a durable number under each name. -/
theorem durable_get {limits : Limits Float} (h : ∀ x ∈ limits.numbers, Durable x) (name : Name) :
    Durable (limits.get name) := by
  have hname : name ∈ Name.all := by cases name <;> decide
  exact h _ (List.mem_map_of_mem hname)

/-- Limits with durable numbers can be written. -/
theorem writable_toJson {limits : Limits Float} (h : ∀ x ∈ limits.numbers, Durable x) :
    Writable limits.toJson := by
  refine .object ?_
  intro member hmember
  obtain ⟨name, -, rfl⟩ := List.mem_map.mp hmember
  exact (durable_get h name).writable

/-- Limits with durable numbers are read back. -/
theorem ofJson?_toJson {limits : Limits Float} (h : ∀ x ∈ limits.numbers, Durable x) :
    ofJson? limits.toJson = some limits := by
  have hrecord := Json.record_object fields (j := limits.toJson) rfl 5 rfl (by decide)
  have hget (name : Name) (default : Float) :
      Json.Record.getD ⟨Name.all.map fun name => (name.text, Json.ofFloat (limits.get name))⟩
        name.text Json.float? default = some (limits.get name) := by
    rw [Json.Record.getD, Json.Record.get?]
    have hlookup : List.lookup name.text
        (Name.all.map fun name => (name.text, Json.ofFloat (limits.get name)))
        = some (Json.ofFloat (limits.get name)) := by
      cases name <;> rfl
    rw [hlookup]
    exact (durable_get h name).float?_ofFloat
  rw [ofJson?, hrecord]
  simp only [hget, Option.bind_eq_bind, Option.bind_some]
  rfl

end Limits

/-! ### Reports -/

namespace Finding

/-- The numbers of a finding, in the order they are written. -/
def numbers : Finding Float → List Float
  | .timeOrder _ previousTime time => [previousTime, time]
  | .speedLimit speed limit => [speed, limit]
  | .groundClearance altitude ground clearance minimum => [altitude, ground, clearance, minimum]

/-- What a finding adds to its issue can be written if its numbers are durable. -/
theorem writable_toMembers {finding : Finding Float} (h : ∀ x ∈ finding.numbers, Durable x) :
    ∀ member ∈ finding.toMembers, Writable member.2 := by
  cases finding with
  | timeOrder previousName previousTime time =>
      simp only [numbers, toMembers, List.forall_mem_cons] at h ⊢
      exact ⟨.string _, h.1.writable, h.2.1.writable, List.forall_mem_nil _⟩
  | speedLimit speed limit =>
      simp only [numbers, toMembers, List.forall_mem_cons] at h ⊢
      exact ⟨h.1.writable, h.2.1.writable, List.forall_mem_nil _⟩
  | groundClearance altitude ground clearance minimum =>
      simp only [numbers, toMembers, List.forall_mem_cons] at h ⊢
      exact ⟨h.1.writable, h.2.1.writable, h.2.2.1.writable, h.2.2.2.1.writable,
        List.forall_mem_nil _⟩

end Finding

namespace Issue

/-- What an issue keeps: its index is a word, and its numbers are durable. -/
structure Kept (issue : Issue Float) : Prop where
  index : issue.index < UInt64.size
  numbers : ∀ x ∈ issue.finding.numbers, Durable x

variable {issue : Issue Float}

/-- An issue can be written if it keeps what it says. -/
theorem writable_toJson (h : issue.Kept) : Writable issue.toJson := by
  refine .object ?_
  rw [List.forall_mem_append]
  refine ⟨?_, Finding.writable_toMembers h.numbers⟩
  simp only [List.forall_mem_cons]
  exact ⟨.string _, Json.writable_ofNat h.index, .string _, .string _, List.forall_mem_nil _⟩

/-- The fields of an issue are distinct, whatever kind of finding it has. -/
theorem distinct_fields (kind : Finding.Kind) : Json.Field.Distinct (fields kind) := by
  cases kind <;> decide

/-- A written issue says in front of what kind its finding is. -/
theorem kind?_toJson (issue : Issue Float) : kind? issue.toJson = some issue.finding.kind := by
  obtain ⟨index, id, name, finding⟩ := issue
  cases finding <;> rfl

/-- An issue is read back. -/
theorem ofJson?_toJson (h : issue.Kept) : ofJson? issue.toJson = some issue := by
  have hkind := kind?_toJson issue
  obtain ⟨index, id, name, finding⟩ := issue
  have hid := WaypointId.ofJson?_toJson id
  have hfloat : ∀ x ∈ finding.numbers, (Json.ofFloat x).float? = some x := fun x hx =>
    (h.numbers x hx).float?_ofFloat
  have hrecord : ∃ members, Json.record (fields finding.kind) (toJson ⟨index, id, name, finding⟩)
      = some ⟨members⟩ ∧ toJson ⟨index, id, name, finding⟩ = .object members := by
    cases finding with
    | timeOrder => exact ⟨_, Json.record_object _ rfl 7 rfl (distinct_fields _), rfl⟩
    | speedLimit => exact ⟨_, Json.record_object _ rfl 6 rfl (distinct_fields _), rfl⟩
    | groundClearance => exact ⟨_, Json.record_object _ rfl 8 rfl (distinct_fields _), rfl⟩
  obtain ⟨members, hrecord, hmembers⟩ := hrecord
  obtain rfl := Json.object.inj hmembers
  -- The four fields in front are those of every issue; what follows depends on the kind.
  have hfinding : Finding.ofRecord? finding.kind
      ⟨[("type", .string finding.kind.text), ("index", Json.ofNat index),
        ("waypoint_id", id.toJson), ("name", .string name)] ++ finding.toMembers⟩
      = some finding := by
    cases finding <;> simp only [Finding.numbers, List.forall_mem_cons] at hfloat <;>
      simp [Finding.ofRecord?, Finding.kind, Finding.toMembers, Json.Record.required,
        Json.Record.get?, List.lookup_cons, Json.string?, hfloat]
  rw [ofJson?, hkind]
  simp only [Option.bind_eq_bind, Option.bind_some, hrecord, hfinding]
  simp [Json.Record.required, Json.Record.get?, List.lookup_cons, Json.string?, Json.nat?,
    Json.ofNat, hid]

end Issue

namespace Report

/-- What a report keeps. -/
def Kept (report : Report Float) : Prop :=
  ∀ issue ∈ report.issues, issue.Kept

variable {report : Report Float}

/-- A report can be written if its issues are kept. -/
theorem writable_toJson (h : report.Kept) : Writable report.toJson := by
  have hissues : Writable (.array (report.issues.map Issue.toJson)) := by
    refine .array ?_
    rw [List.forall_mem_map]
    exact fun issue hissue => Issue.writable_toJson (h issue hissue)
  refine .object ?_
  simp only [List.forall_mem_cons]
  exact ⟨.bool _, hissues, List.forall_mem_nil _⟩

/-- A report is read back. -/
theorem ofJson?_toJson (h : report.Kept) : ofJson? report.toJson = some report := by
  have hrecord := Json.record_object fields (j := report.toJson) rfl 2 rfl (by decide)
  have hissues := Json.list?_map (fun issue hissue => Issue.ofJson?_toJson (h issue hissue))
  rw [ofJson?, hrecord]
  simp [Json.Record.required, Json.Record.get?, List.lookup_cons, Json.bool?, hissues]

end Report

/-! ### Grids -/

namespace Grid

/-- The numbers of a grid, in the order they are written. -/
def numbers (grid : Grid Float) : List Float :=
  [grid.minLat, grid.minLon, grid.latStep, grid.lonStep] ++ grid.elevations.toList

/-- What a grid keeps: its counts are words, and its numbers are durable. -/
structure Kept (grid : Grid Float) : Prop where
  rows : grid.rows < UInt64.size
  cols : grid.cols < UInt64.size
  numbers : ∀ x ∈ grid.numbers, Durable x

variable {grid : Grid Float}

/-- A grid can be written if its counts and numbers are kept. -/
theorem writable_toJson (h : grid.Kept) : Writable grid.toJson := by
  have hnumbers := h.numbers
  simp only [numbers, List.forall_mem_append, List.forall_mem_cons] at hnumbers
  obtain ⟨⟨hlat, hlon, hlatStep, hlonStep, -⟩, helevations⟩ := hnumbers
  have hlist : Writable (.array (grid.elevations.toList.map Json.ofFloat)) := by
    refine .array ?_
    rw [List.forall_mem_map]
    exact fun x hx => (helevations x hx).writable
  refine .object ?_
  simp only [List.forall_mem_cons]
  exact ⟨hlat.writable, hlon.writable, hlatStep.writable, hlonStep.writable,
    Json.writable_ofNat h.rows, Json.writable_ofNat h.cols, hlist, List.forall_mem_nil _⟩

/-- The fields of a grid are read back, and then the grid is checked once more. -/
theorem ofJson_toJson (h : grid.Kept) : ofJson grid.toJson = grid.check.mapError .refused := by
  have hfloat : ∀ x ∈ grid.numbers, (Json.ofFloat x).float? = some x := fun x hx =>
    (h.numbers x hx).float?_ofFloat
  simp only [numbers, List.forall_mem_append, List.forall_mem_cons] at hfloat
  obtain ⟨⟨hlat, hlon, hlatStep, hlonStep, -⟩, helevations⟩ := hfloat
  have hlist := Json.list?_map helevations
  have hrecord := Json.record_object fields (j := grid.toJson) rfl 7 rfl (by decide)
  have hgrid : (Json.record fields grid.toJson).bind ofRecord? = some grid := by
    rw [hrecord]
    simp [ofRecord?, Json.Record.required, Json.Record.get?, List.lookup_cons, Json.nat?,
      Json.ofNat, hlat, hlon, hlatStep, hlonStep, hlist]
  rw [ofJson, hgrid]

/-- A check that passes changes nothing, so it passes again. -/
theorem check_of_check_eq_ok {given : Grid Float} (h : given.check = .ok grid) :
    grid.check = .ok grid := by
  rwa [← eq_of_check_eq_ok h] at h

/-- The grid in a text is read and checked, and nothing follows it. -/
theorem ofText_text (h : grid.Kept) (style : Style) :
    ofText (grid.toJson.text style) = grid.check.mapError .refused := by
  have hread := (writable_toJson h).readPrefix_text style [] (by simp)
  rw [String.ofList_nil, String.append_empty] at hread
  rw [ofText, hread]
  simp only [ofJson_toJson h]
  cases grid.check <;> rfl

end Grid

/-! ### Texts -/

/-- Every waypoint, all limits, every report and every grid that passed its check are read
back from the text they are written to, in either style, when their numbers are finite and
read back themselves. A grid is accepted once more. -/
theorem documents_read_back (style : Style) :
    (∀ (naming : HeadingMode.Naming) (ids : FreshIds) (next : Nat) (w : Waypoint Float),
        (∀ x ∈ w.numbers, Durable x) →
          (Json.read (w.toJson.text style)).bind (Waypoint.ofJson? naming ids next)
            = some (w, next))
      ∧ (∀ limits : Limits Float, (∀ x ∈ limits.numbers, Durable x) →
          Limits.ofText? (limits.toJson.text style) = some limits)
      ∧ (∀ report : Report Float, report.Kept →
          (Json.read (report.toJson.text style)).bind Report.ofJson? = some report)
      ∧ (∀ given grid : Grid Float, given.check = .ok grid → grid.Kept →
          Grid.ofText (grid.toJson.text style) = .ok grid) := by
  refine ⟨?_, ?_, ?_, ?_⟩
  · intro naming ids next w h
    have hwritable := Waypoint.writable_toJson fun x hx _ => (h x hx).2
    rw [hwritable.read_text style, Option.bind_some]
    exact Waypoint.ofJson?_toJson naming ids next h
  · intro limits h
    rw [Limits.ofText?, (Limits.writable_toJson h).read_text style, Option.bind_some]
    exact Limits.ofJson?_toJson h
  · intro report h
    rw [(Report.writable_toJson h).read_text style, Option.bind_some]
    exact Report.ofJson?_toJson h
  · intro given grid hcheck h
    rw [Grid.ofText_text h style, Grid.check_of_check_eq_ok hcheck]
    rfl

/-- A waypoint with a name that needs escapes, a heading of its own, and a peer. -/
def hilltop : Waypoint Float where
  target := ⟨⟨Vector.replicate 32 (Text.lastHex 10)⟩, "the \"top\"\n\u00e9", ⟨35.5, 51.389⟩,
    1250.0, 12.5, .manual 270.0⟩
  leg := ⟨270.0, 8.1, true, 44.7, some ⟨Vector.replicate 32 (Text.lastHex 11)⟩⟩

/-- Everything that can be wrong with such a waypoint. -/
def hilltopReport : Report Float :=
  .ofIssues [hilltop.issue 0 (.timeOrder "start" 12.5 12.5),
    hilltop.issue 0 (.speedLimit 44.5 30.0),
    hilltop.issue 0 (.groundClearance 1250.0 1248.5 1.5 5.0)]

/-- The ground around it. -/
def hilltopGrid : Grid Float :=
  ⟨35.0, 51.0, 1.0, 1.0, 2, 2, #[1200.0, 1248.5, 1210.0, 1230.0]⟩

/-- The four are read back. -/
theorem documents_read_back_hilltop :
    ((Json.read (hilltop.toJson.text .pretty)).bind
        (Waypoint.ofJson? .byName (fun _ => hilltop.target.id) 0) = some (hilltop, 0))
      ∧ Limits.ofText? (Limits.standard.toJson.text .pretty) = some Limits.standard
      ∧ (Json.read (hilltopReport.toJson.text .pretty)).bind Report.ofJson? = some hilltopReport
      ∧ Grid.ofText (hilltopGrid.toJson.text .pretty) = .ok hilltopGrid := by
  obtain ⟨hwaypoint, hlimits, hreport, hgrid⟩ := documents_read_back .pretty
  refine ⟨hwaypoint _ _ _ _ (by decide +kernel), hlimits _ (by decide +kernel), hreport _ ?_,
    hgrid hilltopGrid _ rfl ⟨by decide, by decide, by decide +kernel⟩⟩
  intro issue hissue
  have hindex : ∀ issue ∈ hilltopReport.issues, issue.index < UInt64.size := by decide
  have hnumbers : ∀ issue ∈ hilltopReport.issues, ∀ x ∈ issue.finding.numbers, Durable x := by
    decide +kernel
  exact ⟨hindex issue hissue, hnumbers issue hissue⟩

end FlightPlan
