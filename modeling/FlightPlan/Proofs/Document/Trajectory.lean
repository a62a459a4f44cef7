import FlightPlan.Proofs.Document.Waypoint

/-!
# `FlightPlan.Proofs.Document.Trajectory`: the two layouts of a trajectory file

A trajectory file is a list of waypoints, or an object that holds one under `waypoints`. The two
are the same to a reader (`layouts_agree`), with one difference. A file is taken up as a whole
before its waypoints are looked for, so a member that nobody asks for can still spoil it: when it
is nested too deeply, or when it follows the grammar and has no value. `layouts_differ_overflow`
is such a file.

The comparison is made on values. `listOfText?_of_read` reduces a file to the items of its value
and to whether the value is strict, and `isStrict_object_iff` takes the second apart into the list
and the other members.
-/

set_option autoImplicit false

namespace FlightPlan.Waypoint

open Json (isRepresentable itemsRepresentable membersRepresentable maxDepth)

variable {ids : FreshIds} {key text : String} {members : List (String × Json)} {items : List Json}
  {waypoints : List (Waypoint Float)}

/-- The members of an object under all keys but one. -/
def othersThan (key : String) (members : List (String × Json)) : List (String × Json) :=
  members.filter fun member => member.1 != key

/-- An object has a value throughout when the members under a key and the others have. -/
theorem membersRepresentable_split (key : String) (members : List (String × Json)) :
    membersRepresentable members = true ↔
      (∀ value ∈ membersNamed key members, value.isRepresentable = true) ∧
        membersRepresentable (othersThan key members) = true := by
  rw [Json.membersRepresentable_iff, Json.membersRepresentable_iff, membersNamed,
    List.forall_mem_map]
  constructor
  · intro h
    refine ⟨?_, ?_⟩
    · intro member hmember
      exact h member (List.mem_filter.mp hmember).1
    · intro member hmember
      exact h member (List.mem_filter.mp hmember).1
  · rintro ⟨hnamed, hothers⟩ member hmember
    by_cases hkey : member.1 = key
    · exact hnamed member (List.mem_filter.mpr ⟨hmember, beq_iff_eq.mpr hkey⟩)
    · exact hothers member (List.mem_filter.mpr ⟨hmember, bne_iff_ne.mpr hkey⟩)

/-- What a text that is a value gives: the waypoints of its items, if the value has items and is
strict. -/
theorem listOfText?_of_read {j : Json} (hread : Json.read text = some j) :
    listOfText? ids text =
      if j.isStrict = true then
        (itemsOfFile? j).bind fun items =>
          (listOfJson? .byNameOrNumber ids 0 items).map Prod.fst
      else none := by
  rw [listOfText?, Json.readStrict, hread, Option.filter_some]
  split
  · rw [Option.bind_eq_bind, Option.bind_some]
    congr 1
    funext items
    cases listOfJson? .byNameOrNumber ids 0 items <;> rfl
  · rfl

/-- A text without a value gives no waypoints. -/
theorem listOfText?_of_read_eq_none (hread : Json.read text = none) :
    listOfText? ids text = none := by
  rw [listOfText?, Json.readStrict, hread]
  rfl

/-- An object has items when it has one list of waypoints. -/
theorem itemsOfFile?_object_eq_some_iff :
    itemsOfFile? (.object members) = some items ↔
      membersNamed "waypoints" members = [.array items] := by
  rw [itemsOfFile?]
  split
  · rename_i given hgiven
    simp [hgiven]
  · rename_i hother
    exact iff_of_false (by simp) (hother items)

/-- A document is strict when it has no number out of range and is not too deep. -/
theorem isStrict_iff {j : Json} :
    j.isStrict = true ↔ j.isRepresentable = true ∧ j.depth ≤ maxDepth := by
  rw [Json.isStrict, Bool.and_eq_true, decide_eq_true_eq]

/-- An object whose one member under a key is a list is strict when the list and the other members
have a value. -/
theorem isStrict_object_iff {j : Json} (hnamed : membersNamed key members = [j])
    (hdepth : (Json.object members).depth ≤ maxDepth) :
    (Json.object members).isStrict = true ↔
      j.isRepresentable = true ∧ membersRepresentable (othersThan key members) = true := by
  rw [isStrict_iff, isRepresentable, membersRepresentable_split key, hnamed,
    List.forall_mem_singleton, and_iff_left hdepth]

/-- An array that is not too deep is strict when its items have no number out of range. -/
theorem isStrict_array_iff (hdepth : (Json.array items).depth ≤ maxDepth) :
    (Json.array items).isStrict = true ↔ itemsRepresentable items = true := by
  rw [isStrict_iff, isRepresentable, and_iff_left hdepth]

/-- A trajectory file that is a list gives the waypoints that its items are, unless one of them has
a piece without value. -/
theorem listOfText?_array {a : String} (ha : Json.read a = some (.array items))
    (hdepth : (Json.array items).depth ≤ maxDepth) :
    listOfText? ids a =
      if itemsRepresentable items = true then
        (listOfJson? .byNameOrNumber ids 0 items).map Prod.fst
      else none := by
  rw [listOfText?_of_read ha, itemsOfFile?, Option.bind_some]
  simp only [isStrict_array_iff hdepth]

/-- A trajectory file that is an object gives the waypoints of the list in it, unless another
member has no value. -/
theorem listOfText?_object {a o : String} (ha : Json.read a = some (.array items))
    (ho : Json.read o = some (.object members))
    (hnamed : membersNamed "waypoints" members = [.array items])
    (hdepth : (Json.array items).depth ≤ maxDepth)
    (hdepth' : (Json.object members).depth ≤ maxDepth) :
    listOfText? ids o =
      if membersRepresentable (othersThan "waypoints" members) = true then listOfText? ids a
      else none := by
  have hobject := isStrict_object_iff hnamed hdepth'
  rw [listOfText?_of_read ho, itemsOfFile?_object_eq_some_iff.mpr hnamed, Option.bind_some]
  by_cases hothers : membersRepresentable (othersThan "waypoints" members) = true
  · have hsame : (Json.object members).isStrict = true ↔ itemsRepresentable items = true := by
      rw [hobject, isRepresentable, and_iff_left hothers]
    rw [if_pos hothers, listOfText?_array ha hdepth]
    simp only [hsame]
  · have hnot : ¬ (Json.object members).isStrict = true := by
      intro hstrict
      exact hothers (hobject.mp hstrict).2
    rw [if_neg hothers, if_neg hnot]

/-- What is neither a list nor an object with one member for its waypoints is no trajectory
file. -/
theorem listOfText?_eq_none (harray : ∀ items, Json.read text ≠ some (.array items))
    (hobject : ∀ members value, Json.read text = some (.object members) →
      membersNamed "waypoints" members ≠ [value]) :
    listOfText? ids text = none := by
  cases hread : Json.read text with
  | none => exact listOfText?_of_read_eq_none hread
  | some j =>
      have hitems : itemsOfFile? j = none := by
        cases j with
        | array items => exact absurd hread (harray items)
        | object members =>
            rw [Option.eq_none_iff_forall_ne_some]
            intro items hitems
            exact hobject members _ hread (itemsOfFile?_object_eq_some_iff.mp hitems)
        | _ => rfl
      rw [listOfText?_of_read hread, hitems, Option.bind_none, ite_self]

/-- Other members have no influence on the waypoints that an object gives. -/
theorem listOfText?_object_congr {o o' : String} {members' : List (String × Json)}
    (ho : Json.read o = some (.object members)) (ho' : Json.read o' = some (.object members'))
    (hnamed : membersNamed "waypoints" members' = membersNamed "waypoints" members)
    (hwaypoints : listOfText? ids o = some waypoints)
    (hothers : membersRepresentable (othersThan "waypoints" members') = true)
    (hdepth : (Json.object members').depth ≤ maxDepth) :
    listOfText? ids o' = some waypoints := by
  rw [listOfText?_of_read ho, Option.ite_none_right_eq_some] at hwaypoints
  obtain ⟨hstrict, hbind⟩ := hwaypoints
  obtain ⟨items, hitems, hlist⟩ := Option.bind_eq_some_iff.mp hbind
  have hitems := itemsOfFile?_object_eq_some_iff.mp hitems
  have hlists := (isStrict_object_iff hitems (isStrict_iff.mp hstrict).2).mp hstrict
  have hnamed := hnamed.trans hitems
  have hstrict' := (isStrict_object_iff hnamed hdepth).mpr ⟨hlists.1, hothers⟩
  rw [listOfText?_of_read ho', if_pos hstrict', itemsOfFile?_object_eq_some_iff.mpr hnamed,
    Option.bind_some, hlist]

/-- The two layouts of a trajectory file hold the same waypoints.

A list gives what its items are, unless there is a piece without value in it. An object gives what
the list under its one `waypoints` key gives as a file of its own, whether that is read or not,
unless another of its members has no value; then it is refused. What is neither a list nor such an
object is refused. Where an object gives waypoints, so does every other with the same member for
them, and the same ones, as long as its other members have values. -/
theorem layouts_agree (ids : FreshIds) :
    (∀ a items, Json.read a = some (.array items) → (Json.array items).depth ≤ maxDepth →
      listOfText? ids a =
        if itemsRepresentable items = true then
          (listOfJson? .byNameOrNumber ids 0 items).map Prod.fst
        else none) ∧
    (∀ a o items members, Json.read a = some (.array items) →
      Json.read o = some (.object members) → membersNamed "waypoints" members = [.array items] →
      (Json.array items).depth ≤ maxDepth → (Json.object members).depth ≤ maxDepth →
      listOfText? ids o =
        if membersRepresentable (othersThan "waypoints" members) = true then listOfText? ids a
        else none) ∧
    (∀ text, (∀ items, Json.read text ≠ some (.array items)) →
      (∀ members value, Json.read text = some (.object members) →
        membersNamed "waypoints" members ≠ [value]) →
      listOfText? ids text = none) ∧
    (∀ o o' members members' waypoints, Json.read o = some (.object members) →
      Json.read o' = some (.object members') →
      membersNamed "waypoints" members' = membersNamed "waypoints" members →
      listOfText? ids o = some waypoints →
      membersRepresentable (othersThan "waypoints" members') = true →
      (Json.object members').depth ≤ maxDepth → listOfText? ids o' = some waypoints) := by
  refine ⟨?_, ?_, ?_, ?_⟩
  · intro a items ha hdepth
    exact listOfText?_array ha hdepth
  · intro a o items members ha ho hnamed hdepth hdepth'
    exact listOfText?_object ha ho hnamed hdepth hdepth'
  · intro text harray hobject
    exact listOfText?_eq_none harray hobject
  · intro o o' members members' waypoints ho ho' hnamed hwaypoints hothers hdepth
    exact listOfText?_object_congr ho ho' hnamed hwaypoints hothers hdepth

/-- A waypoint, in a list of its own. -/
def loneItems : List Json :=
  [.object [("lat", Json.ofNat 36), ("lon", Json.ofNat 51), ("altitude_m", Json.ofNat 1210),
    ("time_from_start_s", Json.ofNat 12)]]

/-- The members of a saved plan with that list. -/
def savedMembers : List (String × Json) :=
  [("version", Json.ofNat 3), ("waypoints", .array loneItems), ("updated_at", .string "today")]

/-- The list can be written. -/
theorem writable_loneItems : ∀ item ∈ loneItems, Json.Writable item := by
  intro item hitem
  obtain rfl := List.mem_singleton.mp hitem
  refine .object ?_
  simp only [List.forall_mem_cons, List.not_mem_nil, false_implies, implies_true, and_true]
  exact ⟨Json.writable_ofNat (by decide), Json.writable_ofNat (by decide),
    Json.writable_ofNat (by decide), Json.writable_ofNat (by decide)⟩

/-- So can the members of the plan. -/
theorem writable_savedMembers : ∀ member ∈ savedMembers, Json.Writable member.2 := by
  simp only [savedMembers, List.forall_mem_cons, List.not_mem_nil, false_implies, implies_true,
    and_true]
  exact ⟨Json.writable_ofNat (by decide), .array writable_loneItems, .string "today"⟩

/-- A saved plan holds the waypoint of the list in it, also when it is saved without its version,
and an empty object holds none. -/
theorem layouts_agree_saved :
    listOfText? WaypointId.zeros ((Json.object savedMembers).text .pretty) =
        listOfText? WaypointId.zeros ((Json.array loneItems).text .compact) ∧
      (listOfText? WaypointId.zeros ((Json.array loneItems).text .compact)).isSome = true ∧
      listOfText? WaypointId.zeros ((Json.object savedMembers.tail).text .pretty) =
        listOfText? WaypointId.zeros ((Json.object savedMembers).text .pretty) ∧
      listOfText? WaypointId.zeros ((Json.object []).text .pretty) = none := by
  obtain ⟨hitems, hagree, hrefuse, hinfluence⟩ := layouts_agree WaypointId.zeros
  have hlist := (Json.Writable.array writable_loneItems).read_text .compact
  have hobject := (Json.Writable.object writable_savedMembers).read_text .pretty
  have hshorter := (Json.Writable.object fun member h =>
    writable_savedMembers member (List.mem_of_mem_tail h)).read_text .pretty
  have hempty := (Json.Writable.object (List.forall_mem_nil _)).read_text .pretty
  have hsame := hagree _ _ _ _ hlist hobject rfl (by decide) (by decide)
  rw [if_pos (by decide)] at hsame
  have hread : (listOfText? WaypointId.zeros ((Json.array loneItems).text .compact)).isSome =
      true := by
    rw [hitems _ _ hlist (by decide), if_pos (by decide)]
    rfl
  refine ⟨hsame, hread, ?_, ?_⟩
  · obtain ⟨waypoints, hwaypoints⟩ := Option.isSome_iff_exists.mp hread
    rw [hwaypoints] at hsame
    rw [hsame]
    exact hinfluence _ _ _ _ _ hobject hshorter rfl hsame rfl (by decide)
  · refine hrefuse _ ?_ ?_
    · intro items
      rw [hempty]
      simp
    · intro members value
      rw [hempty]
      intro h
      obtain rfl := Json.object.inj (Option.some.inj h)
      simp [membersNamed]

/-- A list of no waypoints beside a number past the range of doubles. -/
def overflowing : String := "\x7b\"note\":1e400,\"waypoints\":[]\x7d"

/-- The text is that of an object with an empty list of waypoints, and it is not strict. -/
theorem read_overflowing :
    ∃ members, Json.read overflowing = some (.object members) ∧
      membersNamed "waypoints" members = [.array []] ∧ (Json.object members).depth = 2 ∧
      (Json.object members).isStrict = false := by
  -- Values cannot be compared, so some of what can be said of the value is computed.
  have hvalue : (Json.read overflowing).map (fun j =>
      ((itemsOfFile? j).map List.length, j.depth, j.isStrict)) = some (some 0, 2, false) := by
    decide +kernel
  obtain ⟨j, hread, hj⟩ := Option.map_eq_some_iff.mp hvalue
  obtain ⟨hlength, hdepth, hstrict⟩ : (itemsOfFile? j).map List.length = some 0 ∧ j.depth = 2 ∧
      j.isStrict = false := by
    simpa using hj
  obtain ⟨items, hitems, hnil⟩ := Option.map_eq_some_iff.mp hlength
  obtain rfl := List.length_eq_zero_iff.mp hnil
  cases j with
  | array items =>
      obtain rfl := Option.some.inj hitems
      exact absurd hdepth (by decide)
  | object members =>
      exact ⟨members, hread, itemsOfFile?_object_eq_some_iff.mp hitems, hdepth, hstrict⟩
  | _ => simp [itemsOfFile?] at hitems

/-- A number past the range of doubles is refused wherever it stands in an object, also beside a
list that is read on its own. -/
theorem layouts_differ_overflow :
    ¬ ∀ (ids : FreshIds) (a o : String) (items : List Json) (members : List (String × Json)),
      Json.read a = some (.array items) → Json.read o = some (.object members) →
      membersNamed "waypoints" members = [.array items] →
      (Json.array items).depth ≤ maxDepth → (Json.object members).depth ≤ maxDepth →
      listOfText? ids o = listOfText? ids a := by
  intro h
  have hread : Json.read "[]" = some (.array []) := rfl
  have hlist (ids : FreshIds) : listOfText? ids "[]" = some [] := by
    rw [listOfText?_of_read hread]
    rfl
  obtain ⟨members, hread', hnamed, hdepth, hstrict⟩ := read_overflowing
  have hobject (ids : FreshIds) : listOfText? ids overflowing = none := by
    rw [listOfText?_of_read hread', hstrict, if_neg Bool.false_ne_true]
  have hlimit : (Json.object members).depth ≤ maxDepth := by
    rw [hdepth]
    decide
  have hsame := h WaypointId.zeros "[]" overflowing [] members hread hread' hnamed
    (by decide) hlimit
  rw [hlist, hobject] at hsame
  exact Option.some_ne_none _ hsame.symm

end FlightPlan.Waypoint
