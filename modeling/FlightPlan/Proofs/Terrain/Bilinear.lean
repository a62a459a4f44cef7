import FlightPlan.Proofs.Scalar.Exact
import FlightPlan.Proofs.Terrain.Stored

/-!
# `FlightPlan.Proofs.Terrain.Bilinear`: the ground between the nodes

Rounding aside, the elevations of a grid make a continuous surface through all of them. In rational
numbers this can be stated as it is.

It comes from one law about a single side of the grid. A coordinate lies between two lines of
nodes (`Spans`), and how far it is from the first one is a fraction of the step. `bracket` finds
the lines and the fraction by cutting off digits. On a line of nodes there is a choice, since the
cell before the line ends there and the cell behind it begins. What is taken at the lines makes
the choice irrelevant: the mean is the same for all lines that the coordinate lies between
(`mean_bracket`). The last line has no cell behind it and is taken twice.

A position lies in a cell of four nodes (`Surrounds`), and the surface over the cell is the
bilinear one (`interpolated`). Two cells that share an edge agree along it, and there are finitely
many of them, all closed, so that the surface is continuous (`continuousOn_surface`).
`sample_is_bilinear` states all of it for what a grid tells of the ground.
-/

set_option autoImplicit false

namespace FlightPlan.Grid

/-! ### Along one side -/

section
variable {least step x : ℚ} {count lower upper : ℕ} {f : ℕ → ℚ}

/-- The coordinate of a line of nodes. -/
def line (least step : ℚ) (i : ℕ) : ℚ :=
  least + i * step

/-- The coordinate lies between a line of nodes and the next one, or on the last one, which is then
taken twice. -/
structure Spans (least step : ℚ) (count lower upper : ℕ) (x : ℚ) : Prop where
  lines : upper = lower + 1 ∧ upper < count ∨ upper = lower ∧ upper + 1 = count
  above : line least step lower ≤ x
  below : x ≤ line least step upper

/-- How far the coordinate is from a line of nodes, in steps. -/
def stepsFrom (least step : ℚ) (lower : ℕ) (x : ℚ) : ℚ :=
  (x - line least step lower) / step

/-- The mean of what is taken at the two lines. -/
def Bracket.mean (b : Bracket ℚ) (f : ℕ → ℚ) : ℚ :=
  between (f b.lower) (f b.upper) b.fraction

/-- Steps from a line are steps from the first line, less the number of the line. -/
theorem stepsFrom_eq (hstep : 0 < step) (lower : ℕ) :
    stepsFrom least step lower x = (x - least) / step - lower := by
  rw [stepsFrom, line, ← sub_sub, sub_div, mul_div_cancel_right₀ _ hstep.ne']

/-- A coordinate is behind a line when it is at least as many steps away as the line. -/
theorem line_le_iff (hstep : 0 < step) :
    line least step lower ≤ x ↔ lower ≤ (x - least) / step := by
  rw [line, le_div_iff₀ hstep]
  exact (le_sub_iff_add_le').symm

/-- A coordinate is before a line when it is at most as many steps away as the line. -/
theorem le_line_iff (hstep : 0 < step) :
    x ≤ line least step upper ↔ (x - least) / step ≤ upper := by
  rw [line, div_le_iff₀ hstep]
  exact (sub_le_iff_le_add').symm

/-- The lower line is one of the grid. -/
theorem Spans.lower_lt (h : Spans least step count lower upper x) : lower < count := by
  have := h.lines
  omega

/-- The upper line is one of the grid. -/
theorem Spans.upper_lt (h : Spans least step count lower upper x) : upper < count := by
  have := h.lines
  omega

/-- From the lower line it is at most one step. -/
theorem Spans.stepsFrom_mem (h : Spans least step count lower upper x) (hstep : 0 < step) :
    0 ≤ stepsFrom least step lower x ∧ stepsFrom least step lower x ≤ 1 := by
  have habove := (line_le_iff hstep).mp h.above
  have hbelow := (le_line_iff hstep).mp h.below
  have hupper : (upper : ℚ) ≤ lower + 1 := by
    exact_mod_cast (show upper ≤ lower + 1 by have := h.lines; omega)
  rw [stepsFrom_eq hstep]
  exact ⟨by linarith, by linarith⟩

/-- The lines are of the side, and so is what lies between them. -/
theorem Spans.mem_side (h : Spans least step count lower upper x) (hstep : 0 < step) :
    least ≤ x ∧ x ≤ line least step (count - 1) := by
  constructor
  · refine le_trans ?_ h.above
    exact le_add_of_nonneg_right (mul_nonneg (Nat.cast_nonneg lower) hstep.le)
  · refine (le_line_iff hstep).mpr (((le_line_iff hstep).mp h.below).trans ?_)
    exact_mod_cast Nat.le_sub_one_of_lt h.upper_lt

/-- Inside the side, nothing is clamped and the lines are found by cutting off digits. -/
theorem bracket_eq (hstep : 0 < step) (hcount : 1 ≤ count) (hbound : count < UInt64.size)
    (habove : least ≤ x) (hbelow : x ≤ line least step (count - 1)) :
    bracket least step count x
      = ⟨⌊(x - least) / step⌋₊, min (⌊(x - least) / step⌋₊ + 1) (count - 1),
          (x - least) / step - ⌊(x - least) / step⌋₊⟩ := by
  have hnonneg : 0 ≤ (x - least) / step := div_nonneg (sub_nonneg.mpr habove) hstep.le
  have hlast : (x - least) / step ≤ (count - 1 : ℕ) := (le_line_iff hstep).mp hbelow
  have hfloor : ⌊(x - least) / step⌋₊ ≤ count - 1 := Nat.floor_le_of_le hlast
  have hclamp : Scalar.clamp 0.0 (Scalar.ofNat (count - 1)) ((x - least) / step)
      = (x - least) / step := Scalar.clamp_eq_self (Scalar.decimal_zero.le.trans hnonneg) hlast
  have hindex := Scalar.toIndex_floor (x := (x - least) / step) (by omega)
  simp only [bracket]
  rw [hclamp, hindex]
  rfl

/-- The line behind a line, or that line itself if it is the last. -/
theorem spans_next (hlower : lower < count) (habove : line least step lower ≤ x)
    (hbelow : x ≤ line least step (min (lower + 1) (count - 1))) :
    Spans least step count lower (min (lower + 1) (count - 1)) x :=
  ⟨by omega, habove, hbelow⟩

/-- A line lies between itself and the next one. -/
theorem spans_line (hstep : 0 < step) (hlower : lower < count) :
    Spans least step count lower (min (lower + 1) (count - 1)) (line least step lower) := by
  refine spans_next hlower le_rfl ?_
  have hle : (lower : ℚ) ≤ (min (lower + 1) (count - 1) : ℕ) := by
    exact_mod_cast (show lower ≤ min (lower + 1) (count - 1) by omega)
  exact add_le_add_right (mul_le_mul_of_nonneg_right hle hstep.le) least

/-- The lines that are found are around the coordinate. -/
theorem spans_floor (hstep : 0 < step) (hcount : 1 ≤ count) (habove : least ≤ x)
    (hbelow : x ≤ line least step (count - 1)) :
    Spans least step count ⌊(x - least) / step⌋₊
      (min (⌊(x - least) / step⌋₊ + 1) (count - 1)) x := by
  have hnonneg : 0 ≤ (x - least) / step := div_nonneg (sub_nonneg.mpr habove) hstep.le
  have hlast := (le_line_iff hstep).mp hbelow
  have hfloor : ⌊(x - least) / step⌋₊ ≤ count - 1 := Nat.floor_le_of_le hlast
  refine spans_next (by omega) ((line_le_iff hstep).mpr (Nat.floor_le hnonneg))
    ((le_line_iff hstep).mpr ?_)
  rcases Nat.le_total (⌊(x - least) / step⌋₊ + 1) (count - 1) with hnext | hend
  · rw [Nat.min_eq_left hnext]
    exact_mod_cast (Nat.lt_floor_add_one _).le
  · rwa [Nat.min_eq_right hend]

/-- All lines that the coordinate lies between have the same mean, and it is the one of the lines
that are found. -/
theorem mean_bracket (h : Spans least step count lower upper x) (hstep : 0 < step)
    (hbound : count < UInt64.size) (f : ℕ → ℚ) :
    (bracket least step count x).mean f
      = (Bracket.mk lower upper (stepsFrom least step lower x)).mean f := by
  have habove := (line_le_iff hstep).mp h.above
  have hbelow := (le_line_iff hstep).mp h.below
  have hlower := h.lower_lt
  have hnonneg : (0 : ℚ) ≤ lower := Nat.cast_nonneg lower
  obtain ⟨hfirst, hlast⟩ := h.mem_side hstep
  rw [bracket_eq hstep (by omega) hbound hfirst hlast, stepsFrom_eq hstep]
  generalize (x - least) / step = steps at habove hbelow
  rcases h.lines with ⟨rfl, hupper⟩ | ⟨rfl, hupper⟩
  · rcases hbelow.lt_or_eq with hinside | hline
    · -- Off the upper line these are the lines that are found.
      have hfloor : ⌊steps⌋₊ = lower :=
        (Nat.floor_eq_iff (hnonneg.trans habove)).mpr ⟨habove, by exact_mod_cast hinside⟩
      rw [hfloor, Nat.min_eq_left (by omega)]
    · -- On the upper line the fraction is one whole step here, and none for the lines found.
      subst hline
      simp only [Bracket.mean, Nat.floor_natCast, between]
      push_cast
      ring
  · obtain rfl : steps = upper := le_antisymm hbelow habove
    rw [Nat.floor_natCast, Nat.min_eq_right (by omega)]
    congr
    omega

/-- A mean gives what it is taken of two weights that add up to one. -/
theorem between_eq_weights (a b fraction : ℚ) :
    between a b fraction = (1 - fraction) * a + fraction * b := by
  simp only [between]
  ring

/-- So it lies between any bounds of the two. -/
theorem between_mem {a b fraction low high : ℚ} (hnonneg : 0 ≤ fraction) (hle : fraction ≤ 1)
    (ha : low ≤ a ∧ a ≤ high) (hb : low ≤ b ∧ b ≤ high) :
    low ≤ between a b fraction ∧ between a b fraction ≤ high := by
  have hrest : 0 ≤ 1 - fraction := sub_nonneg.mpr hle
  rw [between_eq_weights]
  constructor
  · calc
      low = (1 - fraction) * low + fraction * low := by ring
      _ ≤ (1 - fraction) * a + fraction * b := by gcongr; exacts [ha.1, hb.1]
  · calc
      (1 - fraction) * a + fraction * b ≤ (1 - fraction) * high + fraction * high := by
        gcongr; exacts [ha.2, hb.2]
      _ = high := by ring

end

/-! ### Over a cell -/

/-- Two rows and two columns of nodes. -/
structure Cell where
  south : ℕ
  north : ℕ
  west : ℕ
  east : ℕ

/-- The position lies in the cell, whose rows and columns are next to each other. At the last row
or column there is no next one, and the cell has no height or no width there. -/
structure Surrounds (g : Grid ℚ) (cell : Cell) (p : Position ℚ) : Prop where
  rows : Spans g.minLat g.latStep g.rows cell.south cell.north p.lat
  cols : Spans g.minLon g.lonStep g.cols cell.west cell.east p.lon

/-- The bilinear surface over the cell: each node has a weight for its row and one for its
column. -/
def interpolated (g : Grid ℚ) (cell : Cell) (p : Position ℚ) : ℚ :=
  let y := stepsFrom g.minLat g.latStep cell.south p.lat
  let x := stepsFrom g.minLon g.lonStep cell.west p.lon
  (1 - y) * ((1 - x) * g.node cell.south cell.west + x * g.node cell.south cell.east)
    + y * ((1 - x) * g.node cell.north cell.west + x * g.node cell.north cell.east)

/-- The lowest of the four nodes. -/
def lowest (g : Grid ℚ) (cell : Cell) : ℚ :=
  min (min (g.node cell.south cell.west) (g.node cell.south cell.east))
    (min (g.node cell.north cell.west) (g.node cell.north cell.east))

/-- The highest of the four nodes. -/
def highest (g : Grid ℚ) (cell : Cell) : ℚ :=
  max (max (g.node cell.south cell.west) (g.node cell.south cell.east))
    (max (g.node cell.north cell.west) (g.node cell.north cell.east))

/-- A grid of rational numbers that can be sampled: it has nodes, each with its elevation, and they
are apart. -/
structure Regular (g : Grid ℚ) : Prop where
  rows : 1 ≤ g.rows
  cols : 1 ≤ g.cols
  latStep : 0 < g.latStep
  lonStep : 0 < g.lonStep
  filled : g.rows * g.cols = g.elevations.size
  small : g.elevations.size < maxCount

variable {g : Grid ℚ} {cell : Cell} {p : Position ℚ}

/-- A checked grid can be sampled. -/
theorem regular_of_check (hcheck : g.check = .ok g) (hsize : g.elevations.size < maxCount) :
    g.Regular := by
  obtain ⟨hrows, hcols, hfilled, hgeometry⟩ := (check_eq_ok_iff hsize).mp hcheck
  obtain ⟨-, -, -, -, hlat, hlon⟩ := hasGeometry_iff.mp hgeometry
  exact ⟨hrows, hcols, Scalar.decimal_zero.ge.trans_lt hlat, Scalar.decimal_zero.ge.trans_lt hlon,
    hfilled, hsize⟩

/-- The rows can be counted in a word, since each has an elevation. -/
theorem Regular.rows_lt (hg : g.Regular) : g.rows < UInt64.size := by
  have hle : g.rows ≤ g.rows * g.cols := Nat.le_mul_of_pos_right g.rows hg.cols
  have hfilled := hg.filled
  have hsmall : g.elevations.size < UInt64.size - 1 := hg.small
  omega

/-- The columns can be counted in a word, since each has an elevation. -/
theorem Regular.cols_lt (hg : g.Regular) : g.cols < UInt64.size := by
  have hle : g.cols ≤ g.rows * g.cols := Nat.le_mul_of_pos_left g.cols hg.rows
  have hfilled := hg.filled
  have hsmall : g.elevations.size < UInt64.size - 1 := hg.small
  omega

/-- A position is inside when it is between the outer lines in both directions. -/
theorem contains_iff :
    g.contains p = true ↔
      (g.minLat ≤ p.lat ∧ p.lat ≤ line g.minLat g.latStep (g.rows - 1))
        ∧ g.minLon ≤ p.lon ∧ p.lon ≤ line g.minLon g.lonStep (g.cols - 1) := by
  simp only [contains, Bool.and_eq_true, decide_eq_true_iff, and_assoc]
  rfl

/-- A position in a cell is inside. -/
theorem contains_of_surrounds (hg : g.Regular) (h : g.Surrounds cell p) : g.contains p = true :=
  contains_iff.mpr ⟨h.rows.mem_side hg.latStep, h.cols.mem_side hg.lonStep⟩

/-- Every position inside lies in a cell. -/
theorem exists_surrounds (hg : g.Regular) (hinside : g.contains p = true) :
    ∃ cell, g.Surrounds cell p := by
  obtain ⟨⟨hsouth, hnorth⟩, hwest, heast⟩ := contains_iff.mp hinside
  exact ⟨⟨_, _, _, _⟩, spans_floor hg.latStep hg.rows hsouth hnorth,
    spans_floor hg.lonStep hg.cols hwest heast⟩

/-- The mean that is computed for a position. -/
def surface (g : Grid ℚ) (p : Position ℚ) : ℚ :=
  g.bilinear (bracket g.minLat g.latStep g.rows p.lat) (bracket g.minLon g.lonStep g.cols p.lon)

/-- It is the bilinear surface over any cell around the position. -/
theorem surface_eq_interpolated (hg : g.Regular) (h : g.Surrounds cell p) :
    g.surface p = g.interpolated cell p := by
  show Bracket.mean _ (fun r => Bracket.mean _ (g.node r)) = _
  simp only [mean_bracket h.cols hg.lonStep hg.cols_lt]
  rw [mean_bracket h.rows hg.latStep hg.rows_lt]
  simp only [Bracket.mean, between_eq_weights, interpolated]

/-- Inside the grid the sample is the surface. -/
theorem sample_of_contains (hinside : g.contains p = true) : g.sample p = some (g.surface p) :=
  sample_eq_bilinear rfl hinside

/-- The surface over a cell lies between its lowest and its highest node. -/
theorem interpolated_mem (hg : g.Regular) (h : g.Surrounds cell p) :
    g.lowest cell ≤ g.interpolated cell p ∧ g.interpolated cell p ≤ g.highest cell := by
  obtain ⟨hy, hy'⟩ := h.rows.stepsFrom_mem hg.latStep
  obtain ⟨hx, hx'⟩ := h.cols.stepsFrom_mem hg.lonStep
  simp only [interpolated, ← between_eq_weights]
  refine between_mem hy hy' (between_mem hx hx' ?_ ?_) (between_mem hx hx' ?_ ?_) <;>
    simp [lowest, highest]

/-- At a node the surface has its elevation. -/
theorem interpolated_node (row col north east : ℕ) :
    g.interpolated ⟨row, north, col, east⟩
        ⟨line g.minLat g.latStep row, line g.minLon g.lonStep col⟩ = g.node row col := by
  simp [interpolated, stepsFrom]

/-! ### The whole surface -/

/-- The positions between two rows and two columns. -/
def tile (g : Grid ℚ) (node : Fin g.rows × Fin g.cols) : Set (ℚ × ℚ) :=
  Set.Icc (line g.minLat g.latStep node.1)
      (line g.minLat g.latStep (min (node.1 + 1) (g.rows - 1)))
    ×ˢ Set.Icc (line g.minLon g.lonStep node.2)
      (line g.minLon g.lonStep (min (node.2 + 1) (g.cols - 1)))

/-- The cell of these rows and columns. -/
def cellAt (g : Grid ℚ) (row col : ℕ) : Cell :=
  ⟨row, min (row + 1) (g.rows - 1), col, min (col + 1) (g.cols - 1)⟩

/-- A position of a tile is in the cell of its rows and columns. -/
theorem surrounds_of_mem_tile {node : Fin g.rows × Fin g.cols} {c : ℚ × ℚ} (hc : c ∈ g.tile node) :
    g.Surrounds (g.cellAt node.1 node.2) ⟨c.1, c.2⟩ :=
  ⟨spans_next node.1.isLt hc.1.1 hc.1.2, spans_next node.2.isLt hc.2.1 hc.2.2⟩

/-- The surface over one cell is a polynomial, and so continuous. -/
theorem continuous_interpolated (g : Grid ℚ) (cell : Cell) :
    Continuous fun c : ℚ × ℚ => g.interpolated cell ⟨c.1, c.2⟩ := by
  simp only [interpolated, stepsFrom]
  fun_prop

/-- The tiles are closed, there are finitely many of them, and over each one the surface is that of
its cell. -/
theorem continuousOn_surface (hg : g.Regular) :
    ContinuousOn (fun c : ℚ × ℚ => g.surface ⟨c.1, c.2⟩) {c | g.contains ⟨c.1, c.2⟩ = true} := by
  have htile (node : Fin g.rows × Fin g.cols) :
      ContinuousOn (fun c : ℚ × ℚ => g.surface ⟨c.1, c.2⟩) (g.tile node) := by
    have hcell := (g.continuous_interpolated (g.cellAt node.1 node.2)).continuousOn
      (s := g.tile node)
    exact hcell.congr fun c hc => surface_eq_interpolated hg (surrounds_of_mem_tile hc)
  have hcovered : {c : ℚ × ℚ | g.contains ⟨c.1, c.2⟩ = true} ⊆ ⋃ node, g.tile node := by
    intro c hc
    obtain ⟨⟨hsouth, hnorth⟩, hwest, heast⟩ := contains_iff.mp hc
    have hrow := spans_floor hg.latStep hg.rows hsouth hnorth
    have hcol := spans_floor hg.lonStep hg.cols hwest heast
    exact Set.mem_iUnion.mpr ⟨(⟨_, hrow.lower_lt⟩, ⟨_, hcol.lower_lt⟩),
      ⟨hrow.above, hrow.below⟩, ⟨hcol.above, hcol.below⟩⟩
  exact ((locallyFinite_of_finite g.tile).continuousOn_iUnion
    (fun node => isClosed_Icc.prod isClosed_Icc) htile).mono hcovered

/-- In rational numbers, a grid that passed its check and has an array below `2 ^ 63` elevations
tells the bilinear surface through them. At a node this is the elevation stored for its row and
column. Every position inside lies in a cell of four stored elevations, the surface over any such
cell tells the ground there, and it lies between the lowest and the highest of the four. Where two
cells meet their surfaces are the same, so the ground is continuous. -/
theorem sample_is_bilinear (g : Grid ℚ) (hcheck : g.check = .ok g)
    (hsize : g.elevations.size < 2 ^ 63) :
    (∀ row < g.rows, ∀ col < g.cols, ∃ elevation,
        g.elevations[row * g.cols + col]? = some elevation
          ∧ g.sample ⟨g.minLat + row * g.latStep, g.minLon + col * g.lonStep⟩ = some elevation)
      ∧ (∀ p, g.contains p = true →
          (∃ cell, g.Surrounds cell p)
            ∧ ∀ cell, g.Surrounds cell p →
              (∀ row ∈ [cell.south, cell.north], ∀ col ∈ [cell.west, cell.east], g.Stores row col)
                ∧ g.sample p = some (g.interpolated cell p)
                ∧ g.lowest cell ≤ g.interpolated cell p
                ∧ g.interpolated cell p ≤ g.highest cell)
      ∧ (∀ p cell other, g.Surrounds cell p → g.Surrounds other p →
          g.interpolated cell p = g.interpolated other p)
      ∧ ∃ ground : ℚ × ℚ → ℚ, ContinuousOn ground {c | g.contains ⟨c.1, c.2⟩ = true}
          ∧ ∀ c, g.contains ⟨c.1, c.2⟩ = true → g.sample ⟨c.1, c.2⟩ = some (ground c) := by
  have hg := regular_of_check hcheck (hsize.trans (by decide))
  have hstored {row col : ℕ} (hrow : row < g.rows) (hcol : col < g.cols) : g.Stores row col :=
    stores_of_lt hg.filled hg.small hrow hcol
  refine ⟨?_, ?_, ?_, ?_⟩
  · intro row hrow col hcol
    have hnode : g.Surrounds (g.cellAt row col)
        ⟨line g.minLat g.latStep row, line g.minLon g.lonStep col⟩ :=
      ⟨spans_line hg.latStep hrow, spans_line hg.lonStep hcol⟩
    refine ⟨_, (hstored hrow hcol).2.2, ?_⟩
    show g.sample ⟨line g.minLat g.latStep row, line g.minLon g.lonStep col⟩ = _
    rw [sample_of_contains (contains_of_surrounds hg hnode), surface_eq_interpolated hg hnode,
      cellAt, interpolated_node]
  · intro p hinside
    refine ⟨exists_surrounds hg hinside, fun cell h => ⟨?_, ?_, interpolated_mem hg h⟩⟩
    · intro row hrow col hcol
      refine hstored ?_ ?_
      · rcases List.mem_pair.mp hrow with rfl | rfl
        · exact h.rows.lower_lt
        · exact h.rows.upper_lt
      · rcases List.mem_pair.mp hcol with rfl | rfl
        · exact h.cols.lower_lt
        · exact h.cols.upper_lt
    · rw [sample_of_contains hinside, surface_eq_interpolated hg h]
  · intro p cell other hcell hother
    rw [← surface_eq_interpolated hg hcell, surface_eq_interpolated hg hother]
  · exact ⟨_, continuousOn_surface hg, fun c hinside => sample_of_contains hinside⟩

/-- Three rows of two elevations. -/
def hillside : Grid ℚ :=
  ⟨35, 51, 1 / 2, 1 / 4, 3, 2, #[0, 10, 100, 110, 70, 30]⟩

/-- In the middle of the upper cell, at its corner in the north-east, and on the edge of both
cells. -/
theorem sample_is_bilinear_hillside :
    hillside.check = .ok hillside ∧ hillside.elevations.size < 2 ^ 63
      ∧ hillside.Surrounds ⟨1, 2, 0, 1⟩ ⟨143 / 4, 409 / 8⟩
      ∧ hillside.sample ⟨143 / 4, 409 / 8⟩ = some (155 / 2)
      ∧ hillside.sample ⟨hillside.minLat + 2 * hillside.latStep,
          hillside.minLon + 1 * hillside.lonStep⟩ = some 30
      ∧ hillside.interpolated ⟨0, 1, 0, 1⟩ ⟨71 / 2, 409 / 8⟩
          = hillside.interpolated ⟨1, 2, 0, 1⟩ ⟨71 / 2, 409 / 8⟩ := by
  have hsize : hillside.elevations.size < maxCount := by decide
  have hcheck : hillside.check = .ok hillside :=
    (check_eq_ok_iff hsize).mpr ⟨by decide, by decide, by decide, by decide +kernel⟩
  have hmiddle : hillside.Surrounds ⟨1, 2, 0, 1⟩ ⟨143 / 4, 409 / 8⟩ :=
    ⟨⟨by decide, by decide +kernel, by decide +kernel⟩,
      ⟨by decide, by decide +kernel, by decide +kernel⟩⟩
  have hlower : hillside.Surrounds ⟨0, 1, 0, 1⟩ ⟨71 / 2, 409 / 8⟩ :=
    ⟨⟨by decide, by decide +kernel, by decide +kernel⟩,
      ⟨by decide, by decide +kernel, by decide +kernel⟩⟩
  have hupper : hillside.Surrounds ⟨1, 2, 0, 1⟩ ⟨71 / 2, 409 / 8⟩ :=
    ⟨⟨by decide, by decide +kernel, by decide +kernel⟩,
      ⟨by decide, by decide +kernel, by decide +kernel⟩⟩
  obtain ⟨hnodes, hcells, hedges, -⟩ := sample_is_bilinear hillside hcheck (by decide)
  obtain ⟨-, hsample, -⟩ :=
    (hcells _ (contains_of_surrounds (regular_of_check hcheck hsize) hmiddle)).2 _ hmiddle
  obtain ⟨elevation, hstored, hcorner⟩ := hnodes 2 (by decide) 1 (by decide)
  obtain rfl : 30 = elevation := Option.some.inj hstored
  refine ⟨hcheck, by decide, hmiddle, hsample.trans (congrArg some ?_), ?_,
    hedges _ _ _ hlower hupper⟩
  · decide +kernel
  · exact_mod_cast hcorner

end FlightPlan.Grid
