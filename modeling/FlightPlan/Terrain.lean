import FlightPlan.Position

/-!
# `FlightPlan.Terrain`: how high the ground is

A terrain tells the elevation of the ground at a position, where it is known.
Ground can be flat, or given as a `Grid` of elevations at regular steps of
latitude and longitude. Between its nodes a grid is sampled bilinearly; outside
of them it knows nothing.
-/

set_option autoImplicit false

namespace FlightPlan

/-- The elevation of the ground in meters above mean sea level, where it is
known. -/
abbrev Terrain (α : Type) := Position α → Option α

/-- Ground of the same elevation everywhere. -/
def Terrain.flat {α : Type} [Scalar α] (elevation : α) : Terrain α := fun p =>
  if p.isFinite && Scalar.isFinite elevation then some elevation else none

/-- Elevations at regular steps, row by row from the south-west corner. -/
structure Grid (α : Type) where
  minLat : α
  minLon : α
  latStep : α
  lonStep : α
  rows : Nat
  cols : Nat
  elevations : Array α

/-- Why a grid was refused. -/
inductive GridFault where
  /-- There is no row or no column. -/
  | empty
  /-- The elevations do not fill the rows and columns. -/
  | wrongCount (rows cols expected actual : Nat)
  /-- The corner or a step is not finite, or a step is not positive. -/
  | badGeometry
deriving DecidableEq, Repr

/-- The message of a refused grid. -/
def GridFault.message (fault : GridFault) : String :=
  "invalid terrain grid: " ++ match fault with
  | .empty => "grid needs at least one row and one column"
  | .wrongCount rows cols expected actual =>
    "expected " ++ expected.repr ++ " elevations for " ++ rows.repr ++ "x" ++ cols.repr
      ++ ", got " ++ actual.repr
  | .badGeometry => "origin and steps must be finite, steps positive"

namespace Grid

variable {α : Type} [Scalar α]

/-- Counts stop here, so that a product of counts cannot come around to a small
one. -/
def maxCount : Nat := UInt64.size - 1

/-- The corner is finite, and the steps are finite and positive. -/
def hasGeometry (g : Grid α) : Bool :=
  Scalar.isFinite g.minLat && Scalar.isFinite g.minLon
    && Scalar.isFinite g.latStep && Scalar.isFinite g.lonStep
    && 0.0 < g.latStep && 0.0 < g.lonStep

/-- The grid, if it can be sampled. -/
def check (g : Grid α) : Except GridFault (Grid α) :=
  let expected := min (g.rows * g.cols) maxCount
  if g.rows = 0 ∨ g.cols = 0 then .error .empty
  else if g.elevations.size ≠ expected then
    .error (.wrongCount g.rows g.cols expected g.elevations.size)
  else if !g.hasGeometry then .error .badGeometry
  else .ok g

/-- A check that finds nothing gives the grid back. -/
theorem eq_of_check_eq_ok {g accepted : Grid α} (h : g.check = .ok accepted) : accepted = g := by
  -- What is not refused, for one of three reasons, is returned as it is.
  simp only [check] at h
  split at h
  · contradiction
  split at h
  · contradiction
  split at h
  · contradiction
  · exact (Except.ok.inj h).symm

/-- The latitude of the northern row. -/
def maxLat (g : Grid α) : α :=
  g.minLat + Scalar.ofNat (g.rows - 1) * g.latStep

/-- The longitude of the eastern column. -/
def maxLon (g : Grid α) : α :=
  g.minLon + Scalar.ofNat (g.cols - 1) * g.lonStep

/-- The position lies within the outer nodes. -/
def contains (g : Grid α) (p : Position α) : Bool :=
  g.minLat ≤ p.lat && p.lat ≤ g.maxLat && g.minLon ≤ p.lon && p.lon ≤ g.maxLon

/-- The elevation at a node. A column behind the last one is taken for the last,
and ground that is not stored lies at sea level. -/
def node (g : Grid α) (row col : Nat) : α :=
  g.elevations.getD (min (row * g.cols) maxCount + min col (g.cols - 1)) 0.0

/-- Where a coordinate falls along one side of a grid: between which two lines
of nodes, and how far from the first. At the last line both are the same. -/
structure Bracket (α : Type) where
  lower : Nat
  upper : Nat
  fraction : α

/-- The bracket of a coordinate among `count` lines of nodes. -/
def bracket (least step : α) (count : Nat) (coordinate : α) : Bracket α :=
  let last := count - 1
  let along := Scalar.clamp 0.0 (Scalar.ofNat last) ((coordinate - least) / step)
  let lower := Scalar.toIndex (Scalar.floor along)
  ⟨lower, min (lower + 1) last, along - Scalar.ofNat lower⟩

/-- The number at `fraction` of the way from `a` to `b`. -/
def between (a b fraction : α) : α :=
  a + (b - a) * fraction

/-- The bilinear mean of the four nodes around a point: along the two rows
first, then across them. -/
def bilinear (g : Grid α) (row col : Bracket α) : α :=
  let south := between (g.node row.lower col.lower) (g.node row.lower col.upper) col.fraction
  let north := between (g.node row.upper col.lower) (g.node row.upper col.upper) col.fraction
  between south north row.fraction

/-- The elevation of the ground inside the grid. -/
def sample (g : Grid α) : Terrain α := fun p =>
  if !p.isFinite || !g.contains p then none
  else
    let value := g.bilinear (bracket g.minLat g.latStep g.rows p.lat)
      (bracket g.minLon g.lonStep g.cols p.lon)
    if Scalar.isFinite value then some value else none

end Grid

end FlightPlan
