import FlightPlan.Proofs.Json.Record
import FlightPlan.Proofs.Program.Validate
import FlightPlan.Proofs.Tier

/-!
# `FlightPlan.Proofs.Settings`: the settings in force

Settings are eight numbers that come from three places: what is standard, the environment, and a
rules file. `entries` lists them with the name that each place has for them, and everything here is
said of an entry of that list.

The first layer is `chosen_readNumber`: a variable sets its number when it holds a finite one, and
`value_ofEnvironment` wires each number to its own variable. The second is `isUnder_of_ofJson?`: a
rules file decides all limits, those that it does not mention as well, and leaves home alone. Last
is the gate (`sound_iff`). It looks at the limits and the position of home. The altitude of home is
not looked at, but it always comes from the environment and is finite for that reason
(`sound_of_load`).

`in_force` says all of this of the settings that a command is carried out under.
-/

set_option autoImplicit false

namespace FlightPlan

open Json (Reads IsNumber)

/-- A position is valid when it is finite and its coordinates are in the usual ranges. -/
theorem Position.isValid_iff {α : Type} [Scalar α] {p : Position α} :
    p.isValid = true ↔
      p.isFinite = true ∧ (-90.0 ≤ p.lat ∧ p.lat ≤ 90.0) ∧ (-180.0 ≤ p.lon ∧ p.lon ≤ 180.0) := by
  simp only [isValid, within, Bool.and_eq_true, decide_eq_true_eq, and_assoc]

/-! ### Limits from a document -/

namespace Limits

/-- The fields of limits do not share a name. -/
theorem apart_fields : Json.Field.Apart fields := by decide

/-- Each threshold is what a document gives for it, or the standard one. -/
theorem reads_of_ofJson? {j : Json} {limits : Limits Float} (h : ofJson? j = some limits)
    (name : Name) :
    Reads IsNumber (· = standard.get name) ((Json.field name.text).given fields j)
      (limits.get name) := by
  obtain ⟨r, hr, h⟩ := Option.bind_eq_some_iff.mp h
  have hthreshold (name : Name) (x : Float) :
      r.getD name.text Json.float? (standard.get name) = some x ↔
        Reads IsNumber (· = standard.get name) ((Json.field name.text).given fields j) x :=
    Json.Record.getD_eq_some_iff apart_fields hr (List.mem_map_of_mem name.mem_all)
      Json.float?_eq_some_iff
  rw [← hthreshold]
  simp only [Option.bind_eq_bind, Option.bind_eq_some_iff] at h
  obtain ⟨meaningful, hmeaningful, feasible, hfeasible, marginal, hmarginal, ceiling, hceiling,
    clearance, hclearance, h⟩ := h
  obtain rfl := Option.some.inj h
  cases name with
  | meaningful => exact hmeaningful
  | feasible => exact hfeasible
  | marginal => exact hmarginal
  | ceiling => exact hceiling
  | clearance => exact hclearance

end Limits

namespace Settings

variable {env : Environment} {files : Files} {rulesPath : Option String} {settings : Settings}

/-! ### The eight numbers -/

/-- A number of the settings. -/
structure Entry where
  /-- The variable that it is set by. -/
  variableName : String
  /-- The key that a rules file has it under, if it is one of the limits. -/
  key : Option String
  /-- What it is when it is not set. -/
  standard : Float
  /-- Its place in the settings. -/
  value : Settings → Float

/-- The numbers of the settings. -/
def entries : List Entry :=
  [⟨"PLANNER_MIN_MEANINGFUL_MPS", some "min_meaningful_mps", 0.1, (·.limits.meaningful)⟩,
    ⟨"PLANNER_MAX_FEASIBLE_MPS", some "max_feasible_mps", 12.0, (·.limits.feasible)⟩,
    ⟨"PLANNER_MAX_MARGINAL_MPS", some "max_marginal_mps", 20.0, (·.limits.marginal)⟩,
    ⟨"PLANNER_ABSOLUTE_MAX_MPS", some "absolute_max_mps", 30.0, (·.limits.ceiling)⟩,
    ⟨"PLANNER_MIN_CLEARANCE_M", some "min_ground_clearance_m", 5.0, (·.limits.clearance)⟩,
    ⟨"PLANNER_HOME_LAT", none, 35.6892, (·.home.lat)⟩,
    ⟨"PLANNER_HOME_LON", none, 51.3890, (·.home.lon)⟩,
    ⟨"PLANNER_HOME_ALT_M", none, 50.0, (·.homeAltitude)⟩]

/-- The number that comes of what a variable is set to: the finite number that the text is without
blanks around it, and the standard one if there is no such number. -/
inductive Chosen (given : Option String) (standard : Float) : Float → Prop
  | set {text : String} {x : Float} (hgiven : given = some text)
      (hread : Decimal.readFloat (Text.trim text.toList) = some x) (hfinite : x.isFinite = true) :
      Chosen given standard x
  | kept (h : ∀ text x, given = some text → Decimal.readFloat (Text.trim text.toList) = some x →
      x.isFinite = false) : Chosen given standard standard

/-- A number is chosen by its variable. -/
theorem chosen_readNumber (env : Environment) (variableName : String) (standard : Float) :
    Chosen (env variableName) standard (readNumber env variableName standard) := by
  rw [readNumber]
  cases hchosen : ((env variableName).bind fun text =>
      Position.readCoordinate text.toList).filter Float.isFinite with
  | some x =>
      obtain ⟨hbind, hfinite⟩ := Option.filter_eq_some_iff.mp hchosen
      obtain ⟨text, hgiven, hread⟩ := Option.bind_eq_some_iff.mp hbind
      exact .set hgiven hread hfinite
  | none =>
      refine .kept ?_
      intro text x hgiven hread
      have hbind : ((env variableName).bind fun text => Position.readCoordinate text.toList) =
          some x := by
        rw [hgiven]
        exact hread
      rw [hbind] at hchosen
      simpa using hchosen

/-- A number that is chosen is finite if the standard one is. -/
theorem Chosen.isFinite {given : Option String} {standard x : Float}
    (h : Chosen given standard x) (hstandard : standard.isFinite = true) : x.isFinite = true := by
  cases h with
  | set _ _ hfinite => exact hfinite
  | kept _ => exact hstandard

/-- Each number of an environment's settings is read from its own variable. -/
theorem value_ofEnvironment (env : Environment) :
    ∀ entry ∈ entries,
      entry.value (ofEnvironment env) = readNumber env entry.variableName entry.standard := by
  simp only [entries, List.forall_mem_cons, List.not_mem_nil, false_implies, implies_true,
    and_true]
  exact ⟨rfl, rfl, rfl, rfl, rfl, rfl, rfl, rfl⟩

/-- All standard numbers are finite. -/
theorem isFinite_standard : ∀ entry ∈ entries, entry.standard.isFinite = true := by
  simp only [entries, List.forall_mem_cons, List.not_mem_nil, false_implies, implies_true,
    and_true]
  decide

/-- Settings are their numbers. -/
theorem eq_of_entries {other : Settings}
    (h : ∀ entry ∈ entries, entry.value settings = entry.value other) : settings = other := by
  simp only [entries, List.forall_mem_cons, List.not_mem_nil, false_implies, implies_true,
    and_true] at h
  obtain ⟨⟨_, _, _, _, _⟩, ⟨_, _⟩, _⟩ := settings
  obtain ⟨⟨_, _, _, _, _⟩, ⟨_, _⟩, _⟩ := other
  simp_all

/-! ### Layers -/

/-- The number under a rules file with this value: what the value gives for its key, or the
standard one, if it is one of the limits, and otherwise what the environment sets. -/
def Entry.IsUnder (env : Environment) (j : Json) (settings : Settings) (entry : Entry) : Prop :=
  match entry.key with
  | some key =>
    Reads IsNumber (· = entry.standard) ((Json.field key).given Limits.fields j)
      (entry.value settings)
  | none => entry.value settings = entry.value (ofEnvironment env)

/-- A rules file decides all limits and nothing else. -/
theorem isUnder_of_ofJson? {j : Json} {limits : Limits Float}
    (h : Limits.ofJson? j = some limits) :
    ∀ entry ∈ entries, entry.IsUnder env j { ofEnvironment env with limits } := by
  have hreads := Limits.reads_of_ofJson? h
  simp only [entries, List.forall_mem_cons, List.not_mem_nil, false_implies, implies_true,
    and_true]
  exact ⟨hreads .meaningful, hreads .feasible, hreads .marginal, hreads .ceiling,
    hreads .clearance, rfl, rfl, rfl⟩

/-! ### The gate -/

/-- Settings that make sense: finite limits whose speeds ascend from zero, and a place on the Earth
for home. -/
structure Sound (settings : Settings) : Prop where
  finite : ∀ entry ∈ entries, (entry.value settings).isFinite = true
  zero_le : 0.0 ≤ settings.limits.meaningful
  meaningful_le : settings.limits.meaningful ≤ settings.limits.feasible
  feasible_le : settings.limits.feasible ≤ settings.limits.marginal
  marginal_le : settings.limits.marginal ≤ settings.limits.ceiling
  lat : -90.0 ≤ settings.home.lat ∧ settings.home.lat ≤ 90.0
  lon : -180.0 ≤ settings.home.lon ∧ settings.home.lon ≤ 180.0

/-- Settings are without fault when their limits are and home is a valid position. -/
theorem fault?_eq_none_iff :
    settings.fault? = none ↔ settings.limits.faults = [] ∧ settings.home.isValid = true := by
  rw [fault?]
  cases hfaults : settings.limits.faults with
  | cons fault rest => simp
  | nil => cases hhome : settings.home.isValid <;> simp

/-- The numbers of settings are the limits, the two of home, and its altitude. -/
theorem forall_isFinite_iff :
    (∀ entry ∈ entries, (entry.value settings).isFinite = true) ↔
      (∀ name, Scalar.isFinite (settings.limits.get name) = true) ∧
        settings.home.isFinite = true ∧ settings.homeAltitude.isFinite = true := by
  rw [Position.isFinite, Bool.and_eq_true]
  simp only [entries, List.forall_mem_cons, List.not_mem_nil, false_implies, implies_true,
    and_true]
  constructor
  · rintro ⟨hmeaningful, hfeasible, hmarginal, hceiling, hclearance, hlat, hlon, haltitude⟩
    refine ⟨?_, ⟨hlat, hlon⟩, haltitude⟩
    intro name
    cases name with
    | meaningful => exact hmeaningful
    | feasible => exact hfeasible
    | marginal => exact hmarginal
    | ceiling => exact hceiling
    | clearance => exact hclearance
  · rintro ⟨hlimits, ⟨hlat, hlon⟩, haltitude⟩
    exact ⟨hlimits .meaningful, hlimits .feasible, hlimits .marginal, hlimits .ceiling,
      hlimits .clearance, hlat, hlon, haltitude⟩

/-- Settings make sense when they have no fault and the altitude of home, which no fault is about,
is finite. -/
theorem sound_iff :
    settings.Sound ↔ settings.fault? = none ∧ settings.homeAltitude.isFinite = true := by
  rw [fault?_eq_none_iff, Limits.faults_eq_nil_iff, Position.isValid_iff]
  constructor
  · intro h
    obtain ⟨hlimits, hhome, haltitude⟩ := forall_isFinite_iff.mp h.finite
    exact ⟨⟨⟨hlimits, h.zero_le, h.meaningful_le, h.feasible_le, h.marginal_le⟩, hhome, h.lat,
      h.lon⟩, haltitude⟩
  · rintro ⟨⟨⟨hlimits, hzero, hmeaningful, hfeasible, hmarginal⟩, hhome, hlat, hlon⟩, haltitude⟩
    exact ⟨forall_isFinite_iff.mpr ⟨hlimits, hhome, haltitude⟩, hzero, hmeaningful, hfeasible,
      hmarginal, hlat, hlon⟩

/-- Whatever the variables are set to, the numbers of the settings are finite. -/
theorem isFinite_ofEnvironment (env : Environment) :
    ∀ entry ∈ entries, (entry.value (ofEnvironment env)).isFinite = true := by
  intro entry hentry
  rw [value_ofEnvironment env entry hentry]
  exact (chosen_readNumber _ _ _).isFinite (isFinite_standard entry hentry)

/-- Settings that are loaded make sense. -/
theorem sound_of_load (h : load env files rulesPath = .ok settings) : settings.Sound := by
  obtain ⟨hnamed, hfault⟩ := load_eq_ok_iff.mp h
  have hhome : (ofEnvironment env).homeAltitude.isFinite = true :=
    isFinite_ofEnvironment env ⟨"PLANNER_HOME_ALT_M", none, 50.0, (·.homeAltitude)⟩
      (by simp [entries])
  refine sound_iff.mpr ⟨hfault, ?_⟩
  cases rulesPath with
  | none => rwa [show settings = ofEnvironment env from hnamed]
  | some path =>
      obtain ⟨text, limits, -, -, rfl⟩ := hnamed
      exact hhome

/-- Under the same rules file the limits are the same in every environment. -/
theorem limits_eq_of_load {env' : Environment} {path : String} {settings' : Settings}
    (h : load env files (some path) = .ok settings)
    (h' : load env' files (some path) = .ok settings') : settings'.limits = settings.limits := by
  obtain ⟨⟨text, limits, htext, hlimits, rfl⟩, -⟩ := load_eq_ok_iff.mp h
  obtain ⟨⟨text', limits', htext', hlimits', rfl⟩, -⟩ := load_eq_ok_iff.mp h'
  obtain rfl := Option.some.inj (htext'.symm.trans htext)
  exact Option.some.inj (hlimits'.symm.trans hlimits)

/-- What is in force when a command is carried out.

The settings of an environment are eight finite numbers. Each is what its own variable is set to,
or the standard one, and no other variable has an influence on it. Settings that are named and
make sense are loaded. When none are loaded, nothing is carried out and nothing is printed.
Otherwise the command is carried out under them, and they make sense. Without a rules file they
are those of the environment. With one, each limit is what the file gives for it or the standard
one, whatever the environment sets, and home is that of the environment. -/
theorem in_force :
    (∀ settings other : Settings,
      (∀ entry ∈ entries, entry.value settings = entry.value other) → settings = other) ∧
    (∀ env, ∀ entry ∈ entries,
      (entry.value (ofEnvironment env)).isFinite = true ∧
      Chosen (env entry.variableName) entry.standard (entry.value (ofEnvironment env)) ∧
      ∀ env' : Environment, env' entry.variableName = env entry.variableName →
        entry.value (ofEnvironment env') = entry.value (ofEnvironment env)) ∧
    (∀ env files rulesPath settings, Named env files settings rulesPath → Sound settings →
      load env files rulesPath = .ok settings) ∧
    (∀ around invocation fault,
      load around.env around.files invocation.rulesPath = .error fault →
      Program.runTask around invocation = ⟨1, "", some fault⟩) ∧
    (∀ around invocation settings,
      load around.env around.files invocation.rulesPath = .ok settings →
      Program.execute around invocation = Program.perform around settings invocation.task ∧
      settings.Sound ∧
      (invocation.rulesPath = none → settings = ofEnvironment around.env) ∧
      ∀ path, invocation.rulesPath = some path →
        (∃ text j, around.files path = some text ∧ Json.read text = some j ∧
          ∀ entry ∈ entries, entry.IsUnder around.env j settings) ∧
        ∀ env' settings', load env' around.files (some path) = .ok settings' →
          settings'.limits = settings.limits) := by
  refine ⟨fun settings other h => eq_of_entries h, ?_, ?_, ?_, ?_⟩
  · intro env entry hentry
    refine ⟨isFinite_ofEnvironment env entry hentry, ?_, ?_⟩
    · rw [value_ofEnvironment env entry hentry]
      exact chosen_readNumber _ _ _
    · intro env' henv
      rw [value_ofEnvironment env entry hentry, value_ofEnvironment env' entry hentry, readNumber,
        readNumber, henv]
  · intro env files rulesPath settings hnamed hsound
    exact load_eq_ok_iff.mpr ⟨hnamed, (sound_iff.mp hsound).1⟩
  · intro around invocation fault hload
    rw [Program.runTask, Program.execute, hload]
    rfl
  · intro around invocation settings hload
    have hexecute : Program.execute around invocation =
        Program.perform around settings invocation.task := by
      rw [Program.execute, hload]
      rfl
    refine ⟨hexecute, sound_of_load hload, ?_, ?_⟩
    · intro hnone
      rw [hnone] at hload
      exact (load_eq_ok_iff.mp hload).1
    · intro path hpath
      rw [hpath] at hload
      refine ⟨?_, fun env' settings' hload' => limits_eq_of_load hload hload'⟩
      obtain ⟨⟨text, limits, htext, hlimits, rfl⟩, -⟩ := load_eq_ok_iff.mp hload
      obtain ⟨j, hj, hlimits⟩ := Option.bind_eq_some_iff.mp hlimits
      exact ⟨text, j, htext, hj, isUnder_of_ofJson? hlimits⟩

/-- An environment that sets a limit and the latitude of home, beside a rules file that is there
and leaves everything open. -/
def openRules : Surroundings where
  env variableName :=
    if variableName = "PLANNER_MAX_FEASIBLE_MPS" then some " 10 "
    else if variableName = "PLANNER_HOME_LAT" then some "36"
    else none
  files path := if path = "rules.json" then some "\x7b\x7d" else none
  ids _ := hilltop.target.id
  entropy := .ofSeed 0

/-- The limit that the environment sets is not in force, and the latitude is. Without the file
nothing is carried out. -/
theorem in_force_openRules :
    (∃ settings : Settings,
      load openRules.env openRules.files (some "rules.json") = .ok settings ∧
      settings.Sound ∧ settings.limits.feasible = 12.0 ∧ settings.home.lat = 36.0) ∧
    (ofEnvironment openRules.env).limits.feasible = 10.0 ∧
    (ofEnvironment openRules.env).limits.marginal =
      (ofEnvironment fun _ => none).limits.marginal ∧
    Program.runTask openRules ⟨some "lost.json", false, .summary "plan.json"⟩ =
      ⟨1, "", some (.unreadable .rules "lost.json")⟩ := by
  obtain ⟨-, henvironment, -, hrefused, hload⟩ := in_force
  have hread : Json.read "\x7b\x7d" = some (.object []) := rfl
  have hlimits : Limits.ofText? "\x7b\x7d" = some Limits.standard := by
    rw [Limits.ofText?, hread]
    rfl
  have hloaded : load openRules.env openRules.files (some "rules.json") =
      .ok { ofEnvironment openRules.env with limits := Limits.standard } :=
    load_eq_ok_iff.mpr ⟨⟨_, _, rfl, hlimits, rfl⟩,
      Option.isNone_iff_eq_none.mp (by decide +kernel)⟩
  have hsound := (hload openRules ⟨some "rules.json", false, .summary "plan.json"⟩ _ hloaded).2.1
  refine ⟨⟨_, hloaded, hsound, rfl, by decide +kernel⟩, by decide +kernel, ?_, ?_⟩
  · exact (henvironment (fun _ => none)
      ⟨"PLANNER_MAX_MARGINAL_MPS", some "max_marginal_mps", 20.0, (·.limits.marginal)⟩
      (by simp [entries])).2.2 openRules.env rfl
  · exact hrefused openRules ⟨some "lost.json", false, .summary "plan.json"⟩ _ rfl

end Settings

end FlightPlan
