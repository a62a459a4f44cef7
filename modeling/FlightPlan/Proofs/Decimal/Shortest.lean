import FlightPlan.Decimal.Shortest
import FlightPlan.Proofs.Binary64.Sign
import FlightPlan.Proofs.Decimal.Nearest

/-!
# `FlightPlan.Proofs.Decimal.Shortest`: the shortest decimal of a double is nearest to it

Every finite double is the nearest one to its shortest decimal (`nearest_shortest`), so what is
printed with the fewest digits is not another double when it is read.

* What lies in the basin of a double is rounded to it (`roundsTo_of_contains`). Right below a power
  of two a number keeps one digit more than the double does, and there the basin ends sooner.
* The search of `shortest` only takes what is in the basin (`Basin.touches_of_onGrid`). It tests
  whole numbers, and `Basin.touches_iff` says what of.
* The search does not come to nothing. A grid of seventeen digits is finer than the basin is wide,
  so one of the two points around the double is in it (`exists_onGrid_of_tenPow_le`).
-/

set_option autoImplicit false

namespace FlightPlan.Decimal

open Binary64

variable {tie : Tie} {b : Basin} {p : Parts} {place : ℤ} {c d : ℕ} {x : ℚ} {a : Float}

/-! ### Points of a grid -/

/-- The number lies between the two midpoints, or is one of them where these count. -/
def Basin.Contains (b : Basin) (x : ℚ) : Prop :=
  if b.closed then (b.low : ℚ) / b.denominator ≤ x ∧ x ≤ b.high / b.denominator
  else (b.low : ℚ) / b.denominator < x ∧ x < b.high / b.denominator

/-- The test that `Basin.onGrid` makes of a point. -/
def Basin.touches (b : Basin) (place : ℤ) (d : ℕ) : Bool :=
  let scale := Nat.pow 10 (-place).toNat
  let step := b.denominator * Nat.pow 10 place.toNat
  if b.closed then b.low * scale ≤ d * step && d * step ≤ b.high * scale
  else b.low * scale < d * step && d * step < b.high * scale

/-- The point of the grid at the double or next below it. -/
def Basin.pointBelow (b : Basin) (place : ℤ) : ℕ :=
  b.value * Nat.pow 10 (-place).toNat / (b.denominator * Nat.pow 10 place.toNat)

/-- Whichever of the two points around the double is taken, it has passed the test. -/
theorem Basin.touches_of_onGrid (h : b.onGrid tie place = some d) : b.touches place d = true := by
  simp only [Basin.onGrid] at h
  split at h
  · cases h
  · cases h
    assumption
  · cases h
    assumption
  · split at h
    · cases h
      assumption
    split at h
    · cases h
      assumption
    · split at h
      · cases h
        split <;> assumption
      · cases h
        assumption

/-- One of the two points around the double is enough. -/
theorem Basin.exists_onGrid (h : b.touches place (b.pointBelow place) = true
    ∨ b.touches place (b.pointBelow place + 1) = true) : ∃ d, b.onGrid tie place = some d := by
  rw [← Option.isSome_iff_exists]
  simp only [Basin.onGrid]
  split
  · rename_i hfirst hsecond
    rcases h with h | h
    · exact absurd (hfirst.symm.trans h) Bool.false_ne_true
    · exact absurd (hsecond.symm.trans h) Bool.false_ne_true
  · rfl
  · rfl
  · split
    · rfl
    split
    · rfl
    · split <;> rfl

/-- A power of ten with a sign in its exponent, as a fraction of two without. -/
theorem tenPow_eq_div (place : ℤ) :
    (10 : ℚ) ^ place = 10 ^ place.toNat / 10 ^ (-place).toNat := by
  have hplace : place = place.toNat - (-place).toNat := by omega
  nth_rewrite 1 [hplace]
  rw [zpow_sub₀ (by norm_num), zpow_natCast, zpow_natCast]

/-- A point of the grid and a bound of the basin over one denominator. -/
theorem point_eq_div (d : ℕ) (place : ℤ) {denominator : ℕ} (hpos : 0 < denominator) :
    (d : ℚ) * 10 ^ place
      = (d * (denominator * 10 ^ place.toNat) : ℕ) / (denominator * 10 ^ (-place).toNat : ℕ) := by
  have hne : (denominator : ℚ) ≠ 0 := by exact_mod_cast hpos.ne'
  rw [tenPow_eq_div]
  push_cast
  field_simp

/-- A bound of the basin over the same denominator. -/
theorem bound_eq_div (n : ℕ) (place : ℤ) (denominator : ℕ) :
    (n : ℚ) / denominator
      = (n * 10 ^ (-place).toNat : ℕ) / (denominator * 10 ^ (-place).toNat : ℕ) := by
  push_cast
  rw [mul_div_mul_right _ _ (by positivity)]

/-- The common denominator is positive. -/
theorem scaled_pos {denominator : ℕ} (hpos : 0 < denominator) (place : ℤ) :
    (0 : ℚ) < (denominator * 10 ^ (-place).toNat : ℕ) :=
  Nat.cast_pos.mpr (Nat.mul_pos hpos (Nat.pow_pos (by decide)))

/-- The test in natural numbers is one whether the point is in the basin. -/
theorem Basin.touches_iff (hpos : 0 < b.denominator) :
    b.touches place d = true ↔ b.Contains (d * 10 ^ place) := by
  have hscaled := scaled_pos hpos place
  rw [Basin.touches, Basin.Contains, point_eq_div d place hpos, bound_eq_div b.low place,
    bound_eq_div b.high place]
  split
  · rw [Bool.and_eq_true, decide_eq_true_iff, decide_eq_true_iff,
      div_le_div_iff_of_pos_right hscaled, div_le_div_iff_of_pos_right hscaled, Nat.cast_le,
      Nat.cast_le]
    rfl
  · rw [Bool.and_eq_true, decide_eq_true_iff, decide_eq_true_iff,
      div_lt_div_iff_of_pos_right hscaled, div_lt_div_iff_of_pos_right hscaled, Nat.cast_lt,
      Nat.cast_lt]
    rfl

/-- The point below is not above the double. -/
theorem Basin.pointBelow_le (hpos : 0 < b.denominator) (place : ℤ) :
    (b.pointBelow place : ℚ) * 10 ^ place ≤ b.value / b.denominator := by
  rw [point_eq_div _ place hpos, bound_eq_div b.value place,
    div_le_div_iff_of_pos_right (scaled_pos hpos place)]
  exact Nat.cast_le.mpr (Nat.div_mul_le_self _ _)

/-- The next point is above the double. -/
theorem Basin.lt_pointAbove (hpos : 0 < b.denominator) (place : ℤ) :
    (b.value : ℚ) / b.denominator < (b.pointBelow place + 1 : ℕ) * 10 ^ place := by
  rw [point_eq_div _ place hpos, bound_eq_div b.value place,
    div_lt_div_iff_of_pos_right (scaled_pos hpos place)]
  exact Nat.cast_lt.mpr
    (Nat.lt_mul_of_div_lt (Nat.lt_succ_self _) (Nat.mul_pos hpos (Nat.pow_pos (by decide))))

/-- The place of the first digit is not above the double. -/
theorem Basin.tenPow_firstPlace_le (hpos : 0 < b.denominator) (hvalue : 0 < b.value) :
    (10 : ℚ) ^ b.firstPlace ≤ b.value / b.denominator := by
  have hdenominator : (0 : ℚ) < b.denominator := Nat.cast_pos.mpr hpos
  rw [Basin.firstPlace]
  split
  · rename_i hle
    have hdigits := tenPow_le_of_pos (Nat.div_pos hle hpos)
    have hcount := digitCount_pos (b.value / b.denominator)
    have hplace : (digitCount (b.value / b.denominator) : ℤ) - 1
        = (digitCount (b.value / b.denominator) - 1 : ℕ) := by omega
    rw [hplace, zpow_natCast, le_div_iff₀ hdenominator]
    exact_mod_cast (Nat.le_div_iff_mul_le hpos).mp hdigits
  · -- The reciprocal, rounded up, is not above the power of ten behind its digits.
    generalize hceil : (b.denominator + b.value - 1) / b.value = ceil
    have hdigits := lt_tenPow_digitCount (ceil - 1)
    have hbelow : b.denominator + b.value - 1 < (ceil + 1) * b.value :=
      Nat.lt_mul_of_div_lt (by omega) hvalue
    have hproduct : b.denominator ≤ b.value * 10 ^ digitCount (ceil - 1) := by
      have hmono : (ceil + 1) * b.value ≤ (10 ^ digitCount (ceil - 1) + 1) * b.value :=
        Nat.mul_le_mul_right _ (by omega)
      have hexpand : (10 ^ digitCount (ceil - 1) + 1) * b.value
          = b.value * 10 ^ digitCount (ceil - 1) + b.value := by ring
      omega
    rw [zpow_neg, zpow_natCast, inv_le_comm₀ (by positivity) (by positivity), inv_div,
      div_le_iff₀ (by positivity), mul_comm]
    exact_mod_cast hproduct

/-! ### The basin of a double -/

/-- Quarters of the last place, over the denominator of the basin. -/
theorem quarters_div (n : ℕ) (q : ℤ) :
    ((n * Nat.pow 2 (q - 2).toNat : ℕ) : ℚ) / (Nat.pow 2 (2 - q).toNat : ℕ) = n / 4 * 2 ^ q := by
  have hplace : q = (q - 2).toNat - (2 - q).toNat + (2 : ℕ) := by omega
  have hpow : (2 : ℚ) ^ q = 2 ^ (q - 2).toNat / 2 ^ (2 - q).toNat * 4 := by
    nth_rewrite 1 [hplace]
    rw [twoPow_add_natCast, zpow_sub₀ two_ne_zero, zpow_natCast, zpow_natCast]
    norm_num
    ring
  show ((n * 2 ^ (q - 2).toNat : ℕ) : ℚ) / (2 ^ (2 - q).toNat : ℕ) = _
  rw [hpow]
  push_cast
  ring

/-- How far the lower midpoint is, in quarters of the last place. -/
def quartersBelow (p : Parts) : ℕ :=
  if p.significand = 2 ^ 52 ∧ -1074 < p.exponent then 1 else 2

section
variable (hpos : 0 < p.significand)
include hpos

/-- The basin of a double begins halfway to the next double below. -/
theorem Basin.ofParts_low :
    ((Basin.ofParts p).low : ℚ) / (Basin.ofParts p).denominator
      = (p.significand - quartersBelow p / 4) * 2 ^ p.exponent := by
  have hbelow : quartersBelow p ≤ 4 * p.significand := by
    rw [quartersBelow]
    split <;> omega
  have hlow := quarters_div (4 * p.significand - quartersBelow p) p.exponent
  rw [Nat.cast_sub hbelow] at hlow
  refine hlow.trans ?_
  push_cast
  ring

/-- The basin begins below the double. -/
theorem Basin.ofParts_low_lt :
    ((Basin.ofParts p).low : ℚ) / (Basin.ofParts p).denominator < p.value := by
  have hquarters : 1 ≤ quartersBelow p := by
    rw [quartersBelow]
    split <;> decide
  have hquarters' : (1 : ℚ) ≤ quartersBelow p := Nat.one_le_cast.mpr hquarters
  rw [Basin.ofParts_low hpos, Parts.value]
  exact mul_lt_mul_of_pos_right (by linarith) (twoPow_pos _)

end

/-- The value in the basin is that of the double. -/
theorem Basin.ofParts_value :
    ((Basin.ofParts p).value : ℚ) / (Basin.ofParts p).denominator = p.value := by
  refine (quarters_div (4 * p.significand) p.exponent).trans ?_
  rw [Parts.value]
  push_cast
  ring

/-- The basin of a double ends halfway to the next double above. -/
theorem Basin.ofParts_high :
    ((Basin.ofParts p).high : ℚ) / (Basin.ofParts p).denominator
      = (p.significand + 1 / 2) * 2 ^ p.exponent := by
  refine (quarters_div (4 * p.significand + 2) p.exponent).trans ?_
  push_cast
  ring

/-- The lower midpoint is at most half of the last place away. -/
theorem quartersBelow_le (p : Parts) : quartersBelow p ≤ 2 := by
  rw [quartersBelow]
  split <;> decide

/-- What lies strictly between the ends is in the basin, whether or not these are. -/
theorem Basin.contains_of_lt (hlow : (b.low : ℚ) / b.denominator < x)
    (hhigh : x < b.high / b.denominator) : b.Contains x := by
  rw [Basin.Contains]
  split
  · exact ⟨hlow.le, hhigh.le⟩
  · exact ⟨hlow, hhigh⟩

/-- What is in the basin of a double is between the midpoints, and on one of them only if the
double is even. -/
theorem Basin.Contains.bounds (hpos : 0 < p.significand) (h : (Basin.ofParts p).Contains x) :
    (p.significand - quartersBelow p / 4) * 2 ^ p.exponent ≤ x
      ∧ x ≤ (p.significand + 1 / 2) * 2 ^ p.exponent
      ∧ (x = (p.significand - quartersBelow p / 4) * 2 ^ p.exponent
          ∨ x = (p.significand + 1 / 2) * 2 ^ p.exponent → p.significand % 2 = 0) := by
  rw [Basin.Contains, Basin.ofParts_low hpos, Basin.ofParts_high] at h
  split at h
  · rename_i heven
    exact ⟨h.1, h.2, fun _ => beq_iff_eq.mp heven⟩
  · refine ⟨h.1.le, h.2.le, ?_⟩
    rintro (hlow | hhigh)
    · exact absurd hlow h.1.ne'
    · exact absurd hhigh h.2.ne

/-- Below a power of two a number keeps one more digit, and a quarter of the last place of the
power is half of its own. -/
theorem roundsTo_power {q : ℤ} (hleast : -1074 < q) (hlow : 2 ^ 52 - 1 / 4 ≤ x / 2 ^ q)
    (hhigh : x / 2 ^ q < 2 ^ 52) : RoundsTo x (2 ^ 52 * 2 ^ q) := by
  have hunit := twoPow_pos q
  have hhalf : x / 2 ^ (q - 1) = 2 * (x / 2 ^ q) := by
    rw [zpow_sub_one₀ two_ne_zero]
    field_simp
  have hplace : IsPlace x (q - 1) := by
    refine ⟨by omega, ?_, .inr ?_⟩
    · have hexponent : q - 1 + 53 = q + (52 : ℕ) := by omega
      rw [hexponent, twoPow_add_natCast]
      exact (div_lt_iff₀ hunit).mp hhigh
    · have hexponent : q - 1 + 52 = q + (51 : ℕ) := by omega
      rw [hexponent, twoPow_add_natCast, ← le_div_iff₀ hunit]
      linarith
  have hnearest : IsNearest (x / 2 ^ (q - 1)) (2 ^ 53) := by
    rw [hhalf]
    refine ⟨?_, ?_, fun _ => by decide⟩ <;> push_cast <;> linarith
  have hrounds := RoundsTo.intro hplace hnearest
  have hvalue : ((2 ^ 53 : ℕ) : ℚ) * 2 ^ (q - 1) = 2 ^ 52 * 2 ^ q := by
    rw [zpow_sub_one₀ two_ne_zero]
    push_cast
    ring
  rwa [hvalue] at hrounds

/-- A decimal in the basin of a double is rounded to it. -/
theorem roundsTo_of_contains (hplace : IsPlace p.value p.exponent) (hpos : 0 < p.significand)
    (h : (Basin.ofParts p).Contains x) : RoundsTo x p.value := by
  obtain ⟨hlow, hhigh, heven⟩ := h.bounds hpos
  obtain ⟨hdigits, hleast, hnormal⟩ := isPlace_mul_twoPow_iff.mp hplace
  obtain ⟨s, q⟩ := p
  simp only at *
  have hunit := twoPow_pos q
  have hcount : (s : ℚ) + 1 ≤ 2 ^ 53 := by exact_mod_cast hdigits
  have hquarters : (quartersBelow ⟨s, q⟩ : ℚ) ≤ 2 := by exact_mod_cast quartersBelow_le ⟨s, q⟩
  rw [← div_le_iff₀ hunit] at hhigh
  rw [← le_div_iff₀ hunit] at hlow
  rw [← div_eq_iff hunit.ne', ← div_eq_iff hunit.ne'] at heven
  by_cases hdigit : q = -1074 ∨ (2 : ℚ) ^ (q + (52 : ℕ)) ≤ x
  · -- The last digit is at the place of the double.
    refine .intro ⟨hleast, ?_, hdigit⟩ ⟨by linarith, hhigh, ?_⟩
    · have hbelow : x / 2 ^ q < 2 ^ 53 := by linarith
      have htop := (div_lt_iff₀ hunit).mp hbelow
      rwa [← twoPow_add_natCast] at htop
    · rintro (hmiddle | hmiddle)
      · refine heven (.inl ?_)
        linarith
      · exact heven (.inr hmiddle)
  · -- Only right below a power of two there is one more digit.
    obtain ⟨hq, hx⟩ := not_or.mp hdigit
    rw [not_le, twoPow_add_natCast, ← div_lt_iff₀ hunit] at hx
    have hpower : s = 2 ^ 52 ∧ -1074 < q := by
      refine ⟨?_, lt_of_le_of_ne hleast (Ne.symm hq)⟩
      by_contra hne
      have hnormal' := hnormal.resolve_left hq
      have hnext : 2 ^ 52 + 1 ≤ s := by omega
      have hnext' : (2 : ℚ) ^ 52 + 1 ≤ s := by exact_mod_cast hnext
      linarith
    have hquarter : quartersBelow ⟨s, q⟩ = 1 := if_pos hpower
    obtain ⟨rfl, hlower⟩ := hpower
    rw [hquarter] at hlow
    push_cast at hlow
    have hrounds := roundsTo_power hlower hlow hx
    have hvalue : Parts.value ⟨2 ^ 52, q⟩ = 2 ^ 52 * 2 ^ q := by
      rw [Parts.value]
      push_cast
      rfl
    rwa [hvalue]

/-- Seventeen digits are enough. -/
theorem exists_onGrid_of_tenPow_le (tie : Tie) (hplace : IsPlace p.value p.exponent)
    (hpos : 0 < p.significand) (hstep : 10 ^ 16 * 10 ^ place ≤ p.value) :
    ∃ d, (Basin.ofParts p).onGrid tie place = some d := by
  have hden : 0 < (Basin.ofParts p).denominator := Nat.two_pow_pos _
  have hbelow := Basin.pointBelow_le hden place
  have habove := Basin.lt_pointAbove hden place
  rw [Basin.ofParts_value] at hbelow habove
  rw [Nat.cast_add, Nat.cast_one, add_mul, one_mul] at habove
  refine Basin.exists_onGrid ?_
  rw [Basin.touches_iff hden, Basin.touches_iff hden]
  generalize (Basin.ofParts p).pointBelow place = d at hbelow habove ⊢
  have hunit := twoPow_pos p.exponent
  have htop : p.value < 2 ^ 53 * 2 ^ p.exponent := by
    rw [← twoPow_add_natCast]
    exact hplace.below
  have hvalue : p.value = p.significand * 2 ^ p.exponent := rfl
  by_cases hupper : (d : ℚ) * 10 ^ place + 10 ^ place < (p.significand + 1 / 2) * 2 ^ p.exponent
  · refine .inr (Basin.contains_of_lt ?_ ?_)
    · refine (Basin.ofParts_low_lt hpos).trans ?_
      push_cast
      linarith
    · rw [Basin.ofParts_high]
      push_cast
      linarith
  · -- The point above is beyond the midpoint, so the point below is near.
    have htwo : quartersBelow p = 2 := by
      rw [quartersBelow, if_neg]
      rintro ⟨hone, -⟩
      rw [hone] at hvalue hupper
      push_cast at hvalue hupper
      linarith
    refine .inl (Basin.contains_of_lt ?_ ?_)
    · rw [Basin.ofParts_low hpos, htwo]
      push_cast
      linarith
    · rw [Basin.ofParts_high]
      linarith

/-! ### The shortest decimal -/

/-- Each zero that is stripped off goes to the exponent, so the loop keeps the number. -/
theorem stripZeros_go (n c : ℕ) (e : ℤ) :
    ((stripZeros.go n c e).1 : ℚ) * 10 ^ (stripZeros.go n c e).2 = c * 10 ^ e := by
  induction n generalizing c e with
  | zero => rfl
  | succ n ih =>
      rw [stripZeros.go]
      split
      · rename_i hzero
        have hdigits : c = c / 10 * 10 := by omega
        rw [ih, zpow_add_one₀ (by norm_num)]
        nth_rewrite 2 [hdigits]
        push_cast
        ring
      · rfl

/-- Zeros at the end that go into the exponent leave the number as it is. -/
theorem stripZeros_eq (c : ℕ) (e : ℤ) :
    ((stripZeros c e).1 : ℚ) * 10 ^ (stripZeros c e).2 = c * 10 ^ e :=
  stripZeros_go _ c e

/-- What the search of `shortest` finds. -/
def found (tie : Tie) (b : Basin) : Option (ℕ × ℤ) :=
  (List.range 17).findSome? fun more =>
    (b.onGrid tie (b.firstPlace - more)).map fun d => stripZeros d (b.firstPlace - more)

/-- The search finds a decimal in the basin. -/
theorem exists_found (tie : Tie) (hplace : IsPlace p.value p.exponent)
    (hpos : 0 < p.significand) :
    ∃ c e, found tie (Basin.ofParts p) = some (c, e)
      ∧ (Basin.ofParts p).Contains (c * 10 ^ e) := by
  have hden : 0 < (Basin.ofParts p).denominator := Nat.two_pow_pos _
  have hvalue : 0 < (Basin.ofParts p).value :=
    Nat.mul_pos (Nat.mul_pos (by decide) hpos) (Nat.two_pow_pos _)
  cases hfound : found tie (Basin.ofParts p) with
  | none =>
      -- The last grid of the search has a point in the basin.
      have hlast :
          (Basin.ofParts p).onGrid tie ((Basin.ofParts p).firstPlace - (16 : ℕ)) = none :=
        Option.map_eq_none_iff.mp (List.findSome?_eq_none_iff.mp hfound 16 (by decide))
      have hstep : 10 ^ 16 * 10 ^ ((Basin.ofParts p).firstPlace - (16 : ℕ)) ≤ p.value := by
        rw [← tenPow_add_natCast, sub_add_cancel, ← Basin.ofParts_value]
        exact Basin.tenPow_firstPlace_le hden hvalue
      obtain ⟨d, hd⟩ := exists_onGrid_of_tenPow_le tie hplace hpos hstep
      cases hlast.symm.trans hd
  | some point =>
      obtain ⟨more, -, hmore⟩ := List.exists_of_findSome?_eq_some hfound
      obtain ⟨d, hd, rfl⟩ := Option.map_eq_some_iff.mp hmore
      refine ⟨(stripZeros d _).1, (stripZeros d _).2, rfl, ?_⟩
      rw [stripZeros_eq]
      exact (Basin.touches_iff hden).mp (Basin.touches_of_onGrid hd)

/-- Above zero the shortest decimal is the one that is found, or that of all digits if none is. -/
theorem shortest_of_pos (tie : Tie) (h : 0 < (parts a).significand) :
    shortest tie a = ⟨isNegative a,
      ((found tie (Basin.ofParts (parts a))).getD ((parts a).significand, (parts a).exponent)).1,
      ((found tie (Basin.ofParts (parts a))).getD ((parts a).significand, (parts a).exponent)).2⟩
    := by
  simp only [shortest]
  rw [if_neg h.ne']
  rfl

/-- The exponent of a finite double is the place that rounding gives its value. -/
theorem isPlace_parts (ha : a.isFinite = true) (hpos : 0 < (parts a).significand) :
    IsPlace (parts a).value (parts a).exponent := by
  have hcanonical := canonical_double a
  rw [unpack_eq_parts ha, signed, dif_neg hpos.ne'] at hcanonical
  exact hcanonical

/-- The shortest decimal of a double is rounded to its magnitude. -/
theorem roundsTo_shortest (tie : Tie) (ha : a.isFinite = true) :
    RoundsTo (shortest tie a).magnitude (parts a).value := by
  rcases Nat.eq_zero_or_pos (parts a).significand with hzero | hpos
  · have hshortest : shortest tie a = ⟨isNegative a, 0, 0⟩ := if_pos hzero
    rw [hshortest, magnitude, Parts.value, hzero, Nat.cast_zero, zero_mul, zero_mul]
    exact roundsTo_zero
  · have hplace := isPlace_parts ha hpos
    obtain ⟨c, e, hfound, hcontains⟩ := exists_found tie hplace hpos
    rw [shortest_of_pos tie hpos, hfound]
    exact roundsTo_of_contains hplace hpos hcontains

/-- The shortest decimal has the sign of the double. -/
theorem shortest_negative (tie : Tie) (a : Float) : (shortest tie a).negative = isNegative a := by
  simp only [shortest]
  split <;> rfl

/-- Every finite double is the nearest one to its shortest decimal. -/
theorem nearest_shortest (tie : Tie) (ha : a.isFinite = true) : (shortest tie a).nearest = a := by
  have hrounds := roundsTo_shortest tie ha
  have hnearest := represents_nearestMagnitude (shortest tie a)
  have hvalue := value_eq_parts ha
  have hsign := signOf_eq_isNegative ha
  rw [nearest, shortest_negative]
  split
  · rename_i hnegative
    rw [if_pos hnegative] at hvalue hsign
    obtain ⟨hfinite, hnegvalue, hnegsign⟩ := value_neg ha
    have hminus : Represents (shortest tie a).magnitude (-a) := by
      refine ⟨.finite hfinite ?_, ?_⟩
      · rwa [hnegvalue, hvalue, neg_neg]
      · rw [hnegsign, hsign]
        rfl
    rw [hnearest.eq hminus, Binary64.neg_neg]
  · rename_i hnegative
    rw [if_neg hnegative] at hvalue hsign
    exact hnearest.eq ⟨.finite ha (hvalue ▸ hrounds), hsign⟩

end FlightPlan.Decimal
