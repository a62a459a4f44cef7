import FlightPlan.Proofs.Binary64.Remainder
import FlightPlan.Terrain

/-!
# `FlightPlan.Proofs.Terrain.Stored`: a grid reads what it stores

A grid keeps its elevations in one array, row by row, and a read behind the end of it would come
out as sea level. Nothing of that kind happens. A grid that passed its check stores exactly one
elevation for each row and column (`check_eq_ok_iff`); that the product of the two is cut off at
the greatest count does not matter, because no array is as large. So every row and column of the
grid has an elevation of its own (`stores_of_lt`).

The rows and columns that are read come out of a division of doubles. For a position inside the
grid the quotient is a number that is not negative, however it was rounded, and even when it
overflowed. Then it is brought to the last line of nodes at most, whose number is a double as long
as it is below `2 ^ 53`, so that cutting off the digits behind the point gives a line of the grid
(`bracket_lt`). `reads_stored` puts the two together: the ground at a position is interpolated
from four elements of the array, and from nothing else.
-/

set_option autoImplicit false

namespace FlightPlan.Grid

open Binary64

/-! ### What a checked grid stores -/

section
variable {α : Type} [Scalar α] {g : Grid α} {row col : ℕ}

/-- The row and the column are of the grid, and the elevation that is read for them is stored. -/
def Stores (g : Grid α) (row col : ℕ) : Prop :=
  row < g.rows ∧ col < g.cols ∧ g.elevations[row * g.cols + col]? = some (g.node row col)

/-- The geometry of a grid, number by number. -/
theorem hasGeometry_iff :
    g.hasGeometry = true ↔
      Scalar.isFinite g.minLat = true ∧ Scalar.isFinite g.minLon = true
        ∧ Scalar.isFinite g.latStep = true ∧ Scalar.isFinite g.lonStep = true
        ∧ 0.0 < g.latStep ∧ 0.0 < g.lonStep := by
  simp only [hasGeometry, Bool.and_eq_true, decide_eq_true_iff, and_assoc]

/-- A grid passes its check when it has a row and a column, an elevation for each of both, and a
finite corner with finite positive steps. -/
theorem check_eq_ok_iff (hsize : g.elevations.size < maxCount) :
    g.check = .ok g ↔
      1 ≤ g.rows ∧ 1 ≤ g.cols ∧ g.rows * g.cols = g.elevations.size ∧ g.hasGeometry = true := by
  -- A product that was cut off would be the greatest count, which no array here reaches.
  have hcount : g.elevations.size = min (g.rows * g.cols) maxCount ↔
      g.rows * g.cols = g.elevations.size := by omega
  simp only [check]
  constructor
  · intro h
    split at h
    · contradiction
    rename_i hlines
    split at h
    · contradiction
    rename_i hexpected
    split at h
    · contradiction
    rename_i hgeometry
    rw [not_ne_iff, hcount] at hexpected
    rw [Bool.not_eq_true', Bool.not_eq_false] at hgeometry
    exact ⟨by omega, by omega, hexpected, hgeometry⟩
  · rintro ⟨hrows, hcols, hexpected, hgeometry⟩
    rw [if_neg (by omega), if_neg (not_not.mpr (hcount.mpr hexpected)), hgeometry]
    rfl

/-- Every row and column of a filled grid has an elevation of its own. -/
theorem stores_of_lt (hfilled : g.rows * g.cols = g.elevations.size)
    (hsize : g.elevations.size < maxCount) (hrow : row < g.rows) (hcol : col < g.cols) :
    g.Stores row col := by
  have hrows : (row + 1) * g.cols ≤ g.rows * g.cols := Nat.mul_le_mul_right g.cols hrow
  rw [Nat.add_mul, Nat.one_mul] at hrows
  have hindex : row * g.cols + col < g.elevations.size := by omega
  have hread : min (row * g.cols) maxCount + min col (g.cols - 1) = row * g.cols + col := by omega
  refine ⟨hrow, hcol, ?_⟩
  rw [node, hread, Array.getElem?_eq_getElem hindex, Array.getD, dif_pos hindex]
  rfl

/-- Inside the grid nothing but the mean of the four nodes decides the sample. -/
theorem sample_eq_bilinear {p : Position α} (hfinite : p.isFinite = true)
    (hinside : g.contains p = true) :
    g.sample p =
      let elevation := g.bilinear (bracket g.minLat g.latStep g.rows p.lat)
        (bracket g.minLon g.lonStep g.cols p.lon)
      if Scalar.isFinite elevation then some elevation else none := by
  rw [sample, if_neg (by simp [hfinite, hinside])]

end

/-! ### Which lines are read -/

/-- A coordinate behind the first line of nodes is put between two lines of the grid. -/
theorem bracket_lt {least step coordinate : Float} {count : ℕ} (hleast : least.isFinite = true)
    (hstep : step.isFinite = true) (hpositive : (0.0 : Float) < step)
    (hcoordinate : coordinate.isFinite = true) (hle : least ≤ coordinate) (hcount : 1 ≤ count)
    (hbound : count ≤ 2 ^ 53) :
    (bracket least step count coordinate).lower < count
      ∧ (bracket least step count coordinate).upper < count := by
  -- Rounding and overflow leave the quotient a number that is not negative.
  have hdifference : (0.0 : Float) ≤ coordinate - least :=
    (isRounded_sub hcoordinate hleast
      (sub_nonneg.mpr ((le_iff_value hleast hcoordinate).mp hle))).nonneg
  have hquotient : (0.0 : Float) ≤ (coordinate - least) / step :=
    (follows_div hstep ((pos_iff_value hstep).mp hpositive)).nonneg hdifference
  obtain ⟨hlast, hlastvalue⟩ := value_ofNat (n := count - 1) (by omega)
  have hlastnonneg : (0.0 : Float) ≤ Float.ofNat (count - 1) :=
    (nonneg_iff_value hlast).mpr (hlastvalue ▸ Nat.cast_nonneg _)
  obtain ⟨hlow, hhigh⟩ := LawfulComparison.clamp_mem hlastnonneg
    (LawfulComparison.numbers_of_le hquotient).2
  generalize halong : Scalar.clamp 0.0 (Float.ofNat (count - 1)) ((coordinate - least) / step)
    = along at hlow hhigh
  have hfinite : along.isFinite = true :=
    isFinite_iff_bounded.mpr
      (bounded_of_between (by decide) (isFinite_iff_bounded.mp hlast) hlow hhigh)
  have hnonneg : 0 ≤ value along := (nonneg_iff_value hfinite).mp hlow
  have hvalue : value along ≤ (count - 1 : ℕ) := by
    rw [← hlastvalue]
    exact (le_iff_value hfinite hlast).mp hhigh
  have hlower : (bracket least step count coordinate).lower = ⌊value along⌋₊ := by
    have hlt : value along < 2 ^ 64 := by
      refine hvalue.trans_lt ?_
      exact_mod_cast (show count - 1 < 2 ^ 64 by omega)
    rw [← toNat_floor hfinite hnonneg hlt, ← halong]
    rfl
  have hle : ⌊value along⌋₊ ≤ count - 1 := Nat.floor_le_of_le hvalue
  have hupper : (bracket least step count coordinate).upper ≤ count - 1 := Nat.min_le_right ..
  rw [hlower]
  exact ⟨by omega, by omega⟩

/-- Inside a checked grid both coordinates are put between lines of the grid. -/
theorem brackets_lt {g : Grid Float} (hsize : g.elevations.size < maxCount)
    (hcheck : g.check = .ok g) (hrows : g.rows ≤ 2 ^ 53) (hcols : g.cols ≤ 2 ^ 53)
    {p : Position Float} (hfinite : p.isFinite = true) (hinside : g.contains p = true) :
    ((bracket g.minLat g.latStep g.rows p.lat).lower < g.rows
        ∧ (bracket g.minLat g.latStep g.rows p.lat).upper < g.rows)
      ∧ (bracket g.minLon g.lonStep g.cols p.lon).lower < g.cols
      ∧ (bracket g.minLon g.lonStep g.cols p.lon).upper < g.cols := by
  obtain ⟨hrow, hcol, -, hgeometry⟩ := (check_eq_ok_iff hsize).mp hcheck
  obtain ⟨hlat, hlon, hlatStep, hlonStep, hlatPos, hlonPos⟩ := hasGeometry_iff.mp hgeometry
  simp only [Position.isFinite, Bool.and_eq_true] at hfinite
  simp only [contains, Bool.and_eq_true, decide_eq_true_iff] at hinside
  obtain ⟨⟨⟨hsouth, -⟩, hwest⟩, -⟩ := hinside
  exact ⟨bracket_lt hlat hlatStep hlatPos hfinite.1 hsouth hrow hrows,
    bracket_lt hlon hlonStep hlonPos hfinite.2 hwest hcol hcols⟩

/-! ### What is read -/

/-- A grid with an array below `2 ^ 63` elevations passes its check exactly when it has a row and
a column, as many elevations as their product, and a finite corner with finite positive steps.
With up to `2 ^ 53` rows and columns it then knows nothing of positions that are not finite or lie
outside. At every other position what it reads is stored, at rows and columns of the grid, and the
ground is what interpolation makes of these four elements of the array, if that is finite: along
the two rows first, then from the southern one to the northern one. -/
theorem reads_stored (g : Grid Float) (hsize : g.elevations.size < 2 ^ 63) :
    ((∃ accepted, g.check = .ok accepted) ↔
        1 ≤ g.rows ∧ 1 ≤ g.cols ∧ g.rows * g.cols = g.elevations.size
          ∧ g.minLat.isFinite = true ∧ g.minLon.isFinite = true
          ∧ g.latStep.isFinite = true ∧ g.lonStep.isFinite = true
          ∧ (0.0 : Float) < g.latStep ∧ (0.0 : Float) < g.lonStep)
      ∧ ∀ accepted, g.check = .ok accepted →
        accepted = g ∧ (g.rows ≤ 2 ^ 53 → g.cols ≤ 2 ^ 53 → ∀ p : Position Float,
          (p.isFinite = false ∨ g.contains p = false → g.sample p = none)
            ∧ (p.isFinite = true → g.contains p = true →
              let row := bracket g.minLat g.latStep g.rows p.lat
              let col := bracket g.minLon g.lonStep g.cols p.lon
              (∀ r ∈ [row.lower, row.upper], ∀ c ∈ [col.lower, col.upper], g.Stores r c)
                ∧ ∃ southWest southEast northWest northEast : Float,
                  g.elevations[row.lower * g.cols + col.lower]? = some southWest
                    ∧ g.elevations[row.lower * g.cols + col.upper]? = some southEast
                    ∧ g.elevations[row.upper * g.cols + col.lower]? = some northWest
                    ∧ g.elevations[row.upper * g.cols + col.upper]? = some northEast
                    ∧ g.sample p =
                      let south := southWest + (southEast - southWest) * col.fraction
                      let north := northWest + (northEast - northWest) * col.fraction
                      let elevation := south + (north - south) * row.fraction
                      if elevation.isFinite then some elevation else none)) := by
  have hmax : g.elevations.size < maxCount := hsize.trans (by decide)
  have haccepted : g.check = .ok g ↔ _ := check_eq_ok_iff hmax
  rw [hasGeometry_iff] at haccepted
  refine ⟨⟨?_, fun h => ⟨g, haccepted.mpr h⟩⟩, ?_⟩
  · rintro ⟨accepted, hcheck⟩
    obtain rfl := eq_of_check_eq_ok hcheck
    exact haccepted.mp hcheck
  intro accepted hcheck
  obtain rfl := eq_of_check_eq_ok hcheck
  refine ⟨rfl, fun hrows hcols p => ⟨?_, ?_⟩⟩
  · intro hunknown
    rw [sample, if_pos]
    rcases hunknown with h | h <;> simp [h]
  intro hfinite hinside row col
  obtain ⟨-, -, hfilled, -⟩ := haccepted.mp hcheck
  obtain ⟨⟨hsouth, hnorth⟩, hwest, heast⟩ := brackets_lt hmax hcheck hrows hcols hfinite hinside
  have hstores {r c : ℕ} (hr : r < accepted.rows) (hc : c < accepted.cols) :
      accepted.Stores r c := stores_of_lt hfilled hmax hr hc
  refine ⟨?_, _, _, _, _, (hstores hsouth hwest).2.2, (hstores hsouth heast).2.2,
    (hstores hnorth hwest).2.2, (hstores hnorth heast).2.2, sample_eq_bilinear hfinite hinside⟩
  intro r hr c hc
  apply hstores
  · rcases List.mem_pair.mp hr with rfl | rfl
    · exact hsouth
    · exact hnorth
  · rcases List.mem_pair.mp hc with rfl | rfl
    · exact hwest
    · exact heast

/-- A column of three elevations, from far south to far north. The difference between the two ends
overflows. -/
def meridian : Grid Float :=
  ⟨-1e308, 0.0, 1e308, 1.0, 3, 1, #[10.0, 20.0, 30.0]⟩

/-- At its northern end the column is read at the last row only. Half a step south of there the
ground is half way between the last two elevations, and east of the column it is not known. -/
theorem reads_stored_meridian :
    meridian.elevations.size < 2 ^ 63 ∧ meridian.check = .ok meridian
      ∧ meridian.rows ≤ 2 ^ 53 ∧ meridian.cols ≤ 2 ^ 53
      ∧ (⟨1e308, 0.0⟩ : Position Float).isFinite = true
      ∧ meridian.contains ⟨1e308, 0.0⟩ = true
      ∧ (1e308 - meridian.minLat).isFinite = false
      ∧ meridian.Stores 2 0
      ∧ meridian.sample ⟨1e308, 0.0⟩ = some 30.0
      ∧ meridian.sample ⟨5e307, 0.0⟩ = some 25.0
      ∧ meridian.sample ⟨1e308, 1.0⟩ = none := by
  have hsize : meridian.elevations.size < 2 ^ 63 := by decide
  have hcheck : meridian.check = .ok meridian :=
    (check_eq_ok_iff (by decide)).mpr ⟨by decide, by decide, by decide, by decide +kernel⟩
  have hinside : meridian.contains ⟨1e308, 0.0⟩ = true := by decide +kernel
  obtain ⟨-, hreads⟩ := reads_stored meridian hsize
  have hposition := (hreads meridian hcheck).2 (by decide) (by decide)
  obtain ⟨hunknown, -⟩ := hposition ⟨1e308, 1.0⟩
  obtain ⟨-, hend⟩ := hposition ⟨1e308, 0.0⟩
  obtain ⟨-, hmiddle⟩ := hposition ⟨5e307, 0.0⟩
  -- The two brackets tell which elements of the array are meant, and so what they are.
  have hcol : bracket meridian.minLon meridian.lonStep meridian.cols 0.0 = ⟨0, 0, 0.0⟩ := by
    rw [bracket, Bracket.mk.injEq]
    decide +kernel
  have hrow : bracket meridian.minLat meridian.latStep meridian.rows 1e308 = ⟨2, 2, 0.0⟩ := by
    rw [bracket, Bracket.mk.injEq]
    decide +kernel
  have hhalf : bracket meridian.minLat meridian.latStep meridian.rows 5e307 = ⟨1, 2, 0.5⟩ := by
    rw [bracket, Bracket.mk.injEq]
    decide +kernel
  simp only [hrow, hhalf, hcol] at hend hmiddle
  obtain ⟨hstores, southWest, southEast, northWest, northEast, hsw, hse, hnw, hne, hend⟩ :=
    hend (by decide +kernel) hinside
  cases hsw
  cases hse
  cases hnw
  cases hne
  obtain ⟨-, southWest, southEast, northWest, northEast, hsw, hse, hnw, hne, hmiddle⟩ :=
    hmiddle (by decide +kernel) (by decide +kernel)
  cases hsw
  cases hse
  cases hnw
  cases hne
  exact ⟨hsize, hcheck, by decide, by decide, by decide +kernel, hinside, by decide +kernel,
    hstores 2 List.mem_cons_self 0 List.mem_cons_self, hend.trans (by decide +kernel),
    hmiddle.trans (by decide +kernel), hunknown (.inr (by decide +kernel))⟩

end FlightPlan.Grid
