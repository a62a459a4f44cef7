import FlightPlan.Proofs.Binary64.Comparison
import FlightPlan.Proofs.Binary64.Exponent

/-!
# `FlightPlan.Proofs.Binary64.Range`: arithmetic that does not overflow

`Bounded bound x` says that the double `x` is finite and its exponent is at most `bound`.
Every finite double is `Bounded 971` (`isFinite_iff_bounded`), and arithmetic adds to the
bound only what its exact result can need:

* `Bounded.mul`: exponents add up, and there may be 54 more places.
* `Bounded.add`: two more places than the greater of the two bounds.
* `bounded_ofNat`, `bounded_ofBits`: doubles of words, and doubles given by their bits.
* `bounded_of_between`: what lies between two doubles.

In the other direction, what comes out finite was computed from finite doubles
(`isFinite_of_add`, `isFinite_of_mul`).
-/

set_option autoImplicit false

namespace FlightPlan.Binary64

open Float.Model (UnpackedFloat Format totalExponent)
open Float.Model.UnpackedFloat

/-- The double is finite, with an exponent up to the bound. -/
def Bounded (bound : Int) (x : Float) : Prop :=
  Within bound x.toModel.unpack

/-- It can be decided whether a double is bounded. -/
instance (bound : Int) (x : Float) : Decidable (Bounded bound x) :=
  inferInstanceAs (Decidable (Within _ _))

variable {bound : Int} {a b x : Float}

/-- Every finite double is bounded by the greatest exponent. -/
theorem isFinite_iff_bounded : x.isFinite = true ↔ Bounded 971 x :=
  isFinite_iff_within (fits_unpack _)

/-- A double is bounded by every greater bound too. -/
theorem Bounded.mono {greater : Int} (hx : Bounded bound x) (h : bound ≤ greater) :
    Bounded greater x :=
  Within.mono h hx

/-- A bounded double is finite. -/
theorem Bounded.isFinite (hx : Bounded bound x) (h : bound ≤ 971) : x.isFinite = true :=
  isFinite_iff_bounded.mpr (hx.mono h)

/-- A bounded result is bounded when it is packed into a double. -/
theorem bounded_pack {u : UnpackedFloat} (hleast : -1074 ≤ bound) (hgreatest : bound ≤ 971)
    (h : Within bound u) : Bounded bound (.ofModel (.pack u)) :=
  within_unpack_pack hleast hgreatest h

/-- A bounded double is a zero, or has at most 53 digits and an exponent up to the bound. -/
theorem Bounded.zero_or_finite (hx : Bounded bound x) :
    (∃ s, x.toModel.unpack = .zero s) ∨ ∃ s m e hm, x.toModel.unpack = .finite s m e hm
      ∧ m < Nat.pow 2 53 ∧ -1074 ≤ e ∧ e ≤ bound := by
  have hfits : Fits x.toModel.unpack := fits_unpack _
  rw [Bounded] at hx
  cases hu : x.toModel.unpack with
  | infinity s =>
      rw [hu] at hx
      contradiction
  | notANumber =>
      rw [hu] at hx
      contradiction
  | zero s => exact .inl ⟨s, rfl⟩
  | finite s m e hm =>
      rw [hu] at hfits hx
      exact .inr ⟨s, m, e, hm, rfl, hfits.1, hfits.2.1, within_finite_iff.mp hx⟩

/-! ### Exact numbers of more digits -/

/-- A product has at most as many bits as its factors together. -/
theorem log2_mul_le (m n : Nat) : (m * n).log2 ≤ m.log2 + n.log2 + 1 := by
  refine log2_le_of_lt_pow ?_
  have hm : m < Nat.pow 2 (m.log2 + 1) := Nat.lt_log2_self
  have hn : n < Nat.pow 2 (n.log2 + 1) := Nat.lt_log2_self
  have hpow : Nat.pow 2 (m.log2 + n.log2 + 1 + 1)
      = Nat.pow 2 (m.log2 + 1) * Nat.pow 2 (n.log2 + 1) := by
    have hsum : m.log2 + n.log2 + 1 + 1 = (m.log2 + 1) + (n.log2 + 1) := by omega
    rw [hsum]
    exact Nat.pow_add 2 _ _
  rw [hpow]
  exact Nat.mul_lt_mul_of_lt_of_lt hm hn

/-- A shift adds at most as many bits as it goes. -/
theorem log2_shiftLeft_le (m k : Nat) : (m <<< k).log2 ≤ m.log2 + k := by
  refine log2_le_of_lt_pow ?_
  have hm : m < Nat.pow 2 (m.log2 + 1) := Nat.lt_log2_self
  have hpow : Nat.pow 2 (m.log2 + k + 1) = Nat.pow 2 (m.log2 + 1) * Nat.pow 2 k := by
    rw [Nat.add_right_comm]
    exact Nat.pow_add 2 _ _
  rw [Nat.shiftLeft_eq, hpow]
  exact Nat.mul_lt_mul_of_pos_right hm (Nat.two_pow_pos k)

/-- Rounding also takes numbers with fewer digits than a double has. -/
theorem within_round (hleast : -1074 ≤ bound) (s : Sign) {m : Nat} {e : Int}
    (hexponent : e ≤ bound) (htotal : totalExponent m e ≤ bound + 52) :
    Within bound (UnpackedFloat.round .binary64 s m e) := by
  simp only [UnpackedFloat.round, decreaseExponent]
  generalize (e - Format.binary64.targetExponent (totalExponent m e)).toNat = k
  have hlog := log2_shiftLeft_le m k
  refine within_roundWithAccuracy hleast s .exact (by omega) ?_
  rw [totalExponent] at *
  omega

/-- A number with a sign is rounded without it. -/
theorem within_normalize_of {m e : Int} (zeroSign : Sign)
    (h : ∀ s, Within bound (UnpackedFloat.round .binary64 s m.natAbs e)) :
    Within bound (UnpackedFloat.normalize .binary64 m e zeroSign) := by
  rw [UnpackedFloat.normalize]
  split
  · rename_i hneg
    have habs : (-m).toNat = m.natAbs := by
      have := Int.compare_eq_lt.mp hneg
      omega
    rw [habs]
    exact h _
  · exact .zero _
  · rename_i hpos
    have habs : m.toNat = m.natAbs := by
      have := Int.compare_eq_gt.mp hpos
      omega
    rw [habs]
    exact h _

/-- A whole number times a power of two is bounded when its digits do not reach beyond the
bound. -/
theorem within_normalize (hleast : -1074 ≤ bound) {m : Int} {e : Int} (zeroSign : Sign)
    (hexponent : e ≤ bound) (htotal : totalExponent m.natAbs e ≤ bound + 52) :
    Within bound (UnpackedFloat.normalize .binary64 m e zeroSign) :=
  within_normalize_of zeroSign fun s => within_round hleast s hexponent htotal

/-! ### Products and sums -/

/-- A product has as many digits as its factors have together. -/
theorem within_mul_finite (hleast : -1074 ≤ bound) (s t : Sign) {m n : Nat} {e f : Int}
    (hm : 0 < m) (hn : 0 < n) (hexponent : e + f ≤ bound)
    (htotal : totalExponent m e + totalExponent n f ≤ bound + 52) :
    Within bound (UnpackedFloat.mul .binary64 (.finite s m e hm) (.finite t n f hn)) := by
  have hlog := log2_mul_le m n
  refine within_roundWithAccuracy hleast _ .exact hexponent ?_
  simp only [totalExponent] at htotal ⊢
  omega

/-- The bounds of two factors, and the digits of one, bound the product. -/
theorem Bounded.mul {boundA boundB : Int} (ha : Bounded boundA a) (hb : Bounded boundB b)
    (hbound : boundA + boundB + 54 ≤ bound) (hleast : -1074 ≤ bound) (hgreatest : bound ≤ 971) :
    Bounded bound (a * b) := by
  refine bounded_pack (u := UnpackedFloat.mul .binary64 a.toModel.unpack b.toModel.unpack) hleast
    hgreatest ?_
  rcases ha.zero_or_finite with ⟨s, hu⟩ | ⟨s, m, e, hm, hu, hmant, -, he⟩
  · rcases hb.zero_or_finite with ⟨t, hv⟩ | ⟨t, n, f, hn, hv, -⟩ <;> rw [hu, hv] <;>
      exact .zero _
  rcases hb.zero_or_finite with ⟨t, hv⟩ | ⟨t, n, f, hn, hv, hnant, -, hf⟩
  · rw [hu, hv]
    exact .zero _
  · rw [hu, hv]
    -- Factors with 53 digits each have a product with up to 106.
    have hlogm := log2_le_of_lt_pow (k := 52) hmant
    have hlogn := log2_le_of_lt_pow (k := 52) hnant
    refine within_mul_finite hleast s t hm hn (by omega) ?_
    rw [totalExponent, totalExponent]
    omega

/-- The negative of a double has its bound. -/
theorem Bounded.neg (hx : Bounded bound x) (hleast : -1074 ≤ bound) (hgreatest : bound ≤ 971) :
    Bounded bound (-x) := by
  refine bounded_pack (u := x.toModel.unpack.neg) hleast hgreatest ?_
  rcases hx.zero_or_finite with ⟨s, hu⟩ | ⟨s, m, e, hm, hu, -, -, he⟩
  · rw [hu]
    exact .zero _
  · rw [hu]
    exact .finite he

/-- A mantissa counted in units of a lower place. -/
theorem decreaseExponent_lt {m : Nat} {e : Int} (hm : m < Nat.pow 2 53) (he : e ≤ bound)
    (least : Int) : (decreaseExponent m e least).1 < Nat.pow 2 (53 + (bound - least).toNat) := by
  have hshift : (decreaseExponent m e least).1 = m * Nat.pow 2 (e - least).toNat :=
    Nat.shiftLeft_eq ..
  have hpow : Nat.pow 2 (53 + (bound - least).toNat)
      = Nat.pow 2 53 * Nat.pow 2 (bound - least).toNat := Nat.pow_add ..
  rw [hshift, hpow]
  exact Nat.mul_lt_mul_of_lt_of_le hm (Nat.pow_le_pow_right (by decide) (by omega))
    (Nat.two_pow_pos _)

/-- A sum is one of its terms, or both mantissas are counted in units of the lower place,
added and rounded. -/
theorem bounded_add_of {boundA boundB : Int} (ha : Bounded boundA a) (hb : Bounded boundB b)
    (hboundA : boundA ≤ bound) (hboundB : boundB ≤ bound) (hleast : -1074 ≤ bound)
    (hgreatest : bound ≤ 971)
    (hsum : ∀ (s t : Sign) (m n : Nat) (e f : Int), m < Nat.pow 2 53 → n < Nat.pow 2 53 →
      e ≤ boundA → f ≤ boundB →
      Within bound (UnpackedFloat.normalize .binary64 (s.apply (decreaseExponent m e (min e f)).1
        + t.apply (decreaseExponent n f (min e f)).1) (min e f) .positive)) :
    Bounded bound (a + b) := by
  refine bounded_pack (u := UnpackedFloat.add .binary64 a.toModel.unpack b.toModel.unpack) hleast
    hgreatest ?_
  rcases ha.zero_or_finite with ⟨s, hu⟩ | ⟨s, m, e, hm, hu, hmant, -, he⟩
  · rcases hb.zero_or_finite with ⟨t, hv⟩ | ⟨t, n, f, hn, hv, -, -, hf⟩
    · rw [hu, hv]
      cases s <;> cases t <;> exact .zero _
    · rw [hu, hv]
      exact .finite (by omega)
  rcases hb.zero_or_finite with ⟨t, hv⟩ | ⟨t, n, f, hn, hv, hnant, -, hf⟩
  · rw [hu, hv]
    exact .finite (by omega)
  · rw [hu, hv]
    exact hsum s t m n e f hmant hnant he hf

/-- A sum has a bound two places above that of its terms. -/
theorem Bounded.add {least : Int} (ha : Bounded least a) (hb : Bounded least b)
    (hbound : least + 2 ≤ bound) (hleast : -1074 ≤ bound) (hgreatest : bound ≤ 971) :
    Bounded bound (a + b) := by
  refine bounded_add_of ha hb (by omega) (by omega) hleast hgreatest ?_
  intro s t m n e f hmant hnant he hf
  have hmlt := decreaseExponent_lt hmant he (min e f)
  have hnlt := decreaseExponent_lt hnant hf (min e f)
  have hsum : (s.apply (decreaseExponent m e (min e f)).1
      + t.apply (decreaseExponent n f (min e f)).1).natAbs
      < Nat.pow 2 (53 + (least - min e f).toNat + 1) := by
    have hdouble : Nat.pow 2 (53 + (least - min e f).toNat + 1)
        = Nat.pow 2 (53 + (least - min e f).toNat) * 2 := rfl
    cases s <;> cases t <;> simp only [Sign.apply] <;> omega
  have hlog := log2_le_of_lt_pow hsum
  refine within_normalize hleast .positive (by omega) ?_
  rw [totalExponent]
  omega

/-! ### Words and bits -/

/-- The double of a word. -/
theorem bounded_toFloat (n : UInt64) : Bounded 12 n.toFloat := by
  refine bounded_pack (u := UnpackedFloat.ofUInt64 .binary64 n) (by decide) (by decide) ?_
  have hlog : n.toNat.log2 ≤ 63 := log2_le_of_lt_pow n.toNat_lt
  refine within_normalize (m := (n.toNat : Int)) (by decide) .positive (by decide) ?_
  rw [Int.natAbs_natCast, totalExponent]
  omega

/-- A number times a power of ten, before it is rounded. -/
theorem ofScientific_natCast {n : Nat} (hn : 0 < n) {k : Nat} (hk : k ≤ 2048) :
    UnpackedFloat.ofScientific .binary64 n k
      = UnpackedFloat.mul .binary64
          (.finite .positive (n <<< 53) (-53)
            (by rw [Nat.shiftLeft_eq]; exact Nat.mul_pos hn (by decide)))
          (.finite .positive (Nat.pow 10 k) 0 (Nat.pow_pos (by decide))) := by
  have hpos : n ≠ 0 := Nat.ne_of_gt hn
  unfold UnpackedFloat.ofScientific
  rw [dif_neg hpos]
  -- Neither way out is taken: the exponent is not beyond all doubles, and not negative.
  split
  · rename_i hhuge
    have hgreater : (k : Int) > 2048 := hhuge
    omega
  split
  · rename_i htiny
    have hless : (k : Int) < -(2048 + (n.log2 : Int)) := htiny
    omega
  · rw [if_pos (Int.natCast_nonneg k)]
    rfl

/-- A number with the digits of a double is a double, and is multiplied by one. -/
theorem ofNat_of_lt {n : Nat} (hn : n < Nat.pow 2 53) :
    Float.ofNat n = n.toUInt64.toFloat * Float.ofBits 0x3FF0000000000000 := by
  show Float.ofScientific n false 0 = _
  unfold Float.ofScientific
  rw [dif_pos ⟨hn, Nat.zero_le _⟩]
  rfl

/-- A number with more digits is rounded. -/
theorem ofNat_of_ge {n : Nat} (hn : Nat.pow 2 53 ≤ n) :
    Float.ofNat n = .ofModel (.pack (UnpackedFloat.ofScientific .binary64 n 0)) := by
  show Float.ofScientific n false 0 = _
  unfold Float.ofScientific
  rw [dif_neg fun h => Nat.not_lt.mpr hn h.1]
  rfl

/-- The double nearest to a number of up to 64 bits. -/
theorem bounded_ofNat {n : Nat} (hn : n < UInt64.size) : Bounded 14 (Float.ofNat n) := by
  rcases Nat.lt_or_ge n (Nat.pow 2 53) with hsmall | hlarge
  · have hone : Bounded (-52) (Float.ofBits 0x3FF0000000000000) := by decide
    rw [ofNat_of_lt hsmall]
    exact (bounded_toFloat _).mul hone (by decide) (by decide) (by decide)
  · have hpos : 0 < n := Nat.lt_of_lt_of_le (by decide) hlarge
    have hlog : n.log2 ≤ 63 := log2_le_of_lt_pow hn
    have hscaled := log2_shiftLeft_le n 53
    have htotal : totalExponent (n <<< 53) (-53) + totalExponent 1 0 ≤ (14 : Int) + 52 := by
      have hone : Nat.log2 1 = 0 := rfl
      rw [totalExponent, totalExponent, hone]
      omega
    rw [ofNat_of_ge hlarge]
    refine bounded_pack (by decide) (by decide) ?_
    show Within 14 (UnpackedFloat.ofScientific .binary64 n (0 : Nat))
    rw [ofScientific_natCast hpos (Nat.zero_le _)]
    exact within_mul_finite (by decide) _ _ _ _ (by decide) htotal

/-- A double whose bits are below those of `2.0` is below it. -/
theorem bounded_ofBits {bits : UInt64} (h : bits.toNat < 1024 * Nat.pow 2 52) :
    Bounded (-52) (Float.ofBits bits) := by
  refine bounded_pack (u := unpack .binary64 bits.toBitVec) (by decide) (by decide) ?_
  -- The exponent field has the eleven bits in front of the 52 of the mantissa.
  have hfield : (@unpackExponent .binary64 bits.toBitVec).toNat
      = bits.toNat / 4503599627370496 % 2048 := by
    show ((bits.toBitVec.extractLsb 62 52).cast _).toNat = _
    rw [BitVec.toNat_cast, BitVec.extractLsb, BitVec.extractLsb'_toNat, Nat.shiftRight_eq_div_pow]
    rfl
  have hpow : Nat.pow 2 52 = 4503599627370496 := rfl
  have hless : bits.toNat / 4503599627370496 % 2048 ≤ 1023 := by omega
  refine within_unpack (by decide) ?_ ?_
  · rw [hfield]
    omega
  · rw [hfield]
    omega

/-! ### Between two doubles -/

/-- Kinds decide first, and exponents next. -/
theorem rank_le {k e m k' e' m' : Int}
    (h : (toLex (k, toLex (e, m)) : Rank) ≤ toLex (k', toLex (e', m'))) :
    k < k' ∨ k = k' ∧ e ≤ e' := by
  rcases Prod.Lex.toLex_le_toLex.mp h with hkind | ⟨hkind, hrest⟩
  · exact .inl hkind
  rcases Prod.Lex.toLex_le_toLex.mp hrest with hexponent | ⟨hexponent, -⟩
  · exact .inr ⟨hkind, hexponent.le⟩
  · exact .inr ⟨hkind, hexponent.le⟩

/-- The ranks of bounded doubles. -/
theorem within_iff_rank {bound : Int} {u : UnpackedFloat} :
    Within bound u ↔ ∃ k e m : Int, rank? u = some (toLex (k, toLex (e, m)))
      ∧ (-1 ≤ k ∧ k ≤ 1) ∧ (k = 1 → e ≤ bound) ∧ (k = -1 → -e ≤ bound) := by
  constructor
  · intro h
    cases h with
    | zero s => exact ⟨0, 0, 0, rfl, by decide, nofun, nofun⟩
    | @finite s m e hm h =>
        cases s with
        | positive => exact ⟨1, e, m, rfl, by decide, fun _ => h, nofun⟩
        | negative => exact ⟨-1, -e, -m, rfl, by decide, nofun, fun _ => by omega⟩
  · rintro ⟨k, e, m, hrank, hkind, hpositive, hnegative⟩
    rcases u with (_ | _) | _ | s | ⟨_ | _, n, f, hn⟩
    · cases hrank
      omega
    · cases hrank
      omega
    · cases hrank
    · exact .zero s
    · cases hrank
      exact .finite (by simpa using hnegative rfl)
    · cases hrank
      exact .finite (hpositive rfl)

/-- What lies between two doubles has no greater exponent than they have. -/
theorem bounded_of_between {bound : Int} {low high x : Float} (hlow : Bounded bound low)
    (hhigh : Bounded bound high) (hge : low ≤ x) (hle : x ≤ high) : Bounded bound x := by
  obtain ⟨a, ⟨k, e, m⟩, ha, hb, hab⟩ := le_iff_rank.mp hge
  obtain ⟨b, c, hb', hc, hbc⟩ := le_iff_rank.mp hle
  obtain rfl := Option.some.inj (hb.symm.trans hb')
  obtain ⟨kLow, eLow, mLow, hrankLow, hkindLow, -, hexpLow⟩ := within_iff_rank.mp hlow
  obtain ⟨kHigh, eHigh, mHigh, hrankHigh, hkindHigh, hexpHigh, -⟩ := within_iff_rank.mp hhigh
  obtain rfl := Option.some.inj (hrankLow.symm.trans ha)
  obtain rfl := Option.some.inj (hrankHigh.symm.trans hc)
  -- The kinds are -1, 0 and 1. Where `x` is of the same kind as one of the two, its exponent is
  -- on the same side as its rank.
  have hbelow := rank_le hab
  have habove := rank_le hbc
  refine within_iff_rank.mpr ⟨k, e, m, hb, ?_, ?_, ?_⟩ <;> omega

/-! ### What finite results are computed from -/

/-- Packing makes nothing finite that was not. -/
theorem not_isFinite_of_pack {u : UnpackedFloat} (h : u.isFinite = false) :
    (Float.ofModel (.pack u)).isFinite = false :=
  not_isFinite_unpack_pack h

/-- What is finite when it is packed was finite before. -/
theorem isFinite_of_pack {u : UnpackedFloat} (h : (Float.ofModel (.pack u)).isFinite = true) :
    u.isFinite = true := by
  rw [← Bool.not_eq_false]
  intro hnot
  rw [not_isFinite_of_pack hnot] at h
  exact nomatch h

/-- A sum is not finite when one of its terms is not. -/
theorem isFinite_of_add (h : (a + b).isFinite = true) : a.isFinite = true ∧ b.isFinite = true := by
  have hresult : (UnpackedFloat.add .binary64 a.toModel.unpack b.toModel.unpack).isFinite = true :=
    isFinite_of_pack h
  show a.toModel.unpack.isFinite = true ∧ b.toModel.unpack.isFinite = true
  revert hresult
  rcases a.toModel.unpack with (_ | _) | _ | _ | _ <;>
    rcases b.toModel.unpack with (_ | _) | _ | _ | _ <;>
    first | exact fun _ => ⟨rfl, rfl⟩ | exact fun h => nomatch h

/-- Nor is a product when one of its factors is not. -/
theorem isFinite_of_mul (h : (a * b).isFinite = true) : a.isFinite = true ∧ b.isFinite = true := by
  have hresult : (UnpackedFloat.mul .binary64 a.toModel.unpack b.toModel.unpack).isFinite = true :=
    isFinite_of_pack h
  show a.toModel.unpack.isFinite = true ∧ b.toModel.unpack.isFinite = true
  revert hresult
  rcases a.toModel.unpack with (_ | _) | _ | _ | _ <;>
    rcases b.toModel.unpack with (_ | _) | _ | _ | _ <;>
    first | exact fun _ => ⟨rfl, rfl⟩ | exact fun h => nomatch h

/-- What is not a number spoils a product. -/
theorem isNaN_of_mul (h : (a * b).isNaN = false) : b.isNaN = false := by
  show b.toModel.unpack.isNaN = false
  cases hb : b.toModel.unpack with
  | notANumber =>
      have hresult : UnpackedFloat.mul .binary64 a.toModel.unpack b.toModel.unpack
          = .notANumber := by
        rw [hb]
        cases a.toModel.unpack <;> rfl
      have hproduct : a * b = .ofModel (.pack .notANumber) :=
        congrArg (fun u => Float.ofModel (.pack u)) hresult
      rw [hproduct] at h
      exact nomatch h
  | infinity s => rfl
  | zero s => rfl
  | finite s m e hm => rfl

end FlightPlan.Binary64
