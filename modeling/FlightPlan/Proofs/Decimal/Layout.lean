import FlightPlan.Decimal.Layout
import FlightPlan.Message
import FlightPlan.Proofs.Decimal.Reader
import FlightPlan.Proofs.Decimal.Shortest

/-!
# `FlightPlan.Proofs.Decimal.Layout`: doubles in messages read back

Positional writing keeps the number that the digits stand for, wherever the point comes to stand
(`exists_isMantissa_positionalText`). So a decimal in the layout of messages spells the double that
is nearest to it (`spells_text`). With the shortest decimal of a finite double this is the double
itself, and its text reads back (`spells_number`).
-/

set_option autoImplicit false

namespace FlightPlan.Decimal

variable {digits : List Char} {x : Float}

/-- A number is written with one digit or more. -/
theorem isDigits_toDigits (n : ℕ) : IsDigits (Nat.toDigits 10 n) :=
  ⟨Nat.toDigits_ne_nil, fun _ hc => Nat.isDigit_of_mem_toDigits (by decide) (by decide) hc⟩

/-- Zeros at either end of digits are digits. -/
theorem isDigit_of_mem_zeros {n : ℕ} {c : Char} (hc : c ∈ List.replicate n '0') :
    c.isDigit = true := by
  rw [List.eq_of_mem_replicate hc]
  rfl

/-- Digits behind the point are as many as the exponent says. -/
theorem typed_of_append {whole fraction : List Char} {n : ℕ} {e : ℤ}
    (happend : Nat.ofDigitChars 10 (whole ++ fraction) 0 = n)
    (hlength : (fraction.length : ℤ) = -e) : typed whole fraction 0 = n * 10 ^ e := by
  rw [typed_eq false, magnitude, happend, hlength, zero_sub, neg_neg]

/-- Wherever the point comes to stand, the text is digits with a point, and they stand for the same
number. -/
theorem exists_isMantissa_positionalText (h : IsDigits digits) (e : ℤ) :
    ∃ whole fraction, IsMantissa (positionalText [] digits e) whole fraction
      ∧ typed whole fraction 0 = Nat.ofDigitChars 10 digits 0 * 10 ^ e := by
  simp only [positionalText, List.append_nil]
  split
  · -- Zeros are added.
    rename_i hnonneg
    refine ⟨digits ++ List.replicate e.toNat '0', [], .whole ⟨?_, fun c hc => ?_⟩, ?_⟩
    · exact List.append_ne_nil_of_left_ne_nil h.nonempty _
    · rcases List.mem_append.mp hc with hc | hc
      · exact h.isDigit c hc
      · exact isDigit_of_mem_zeros hc
    · have hpow : (10 : ℚ) ^ e = 10 ^ e.toNat := by
        rw [← zpow_natCast, Int.toNat_of_nonneg hnonneg]
      rw [typed, Nat.ofDigitChars_append, Nat.ofDigitChars_replicate_zero, Nat.ofDigitChars_nil,
        hpow]
      push_cast
      ring
  rename_i hneg
  split
  · -- The point stands among the digits.
    rename_i hwhole
    refine ⟨digits.take (digits.length + e).toNat, digits.drop (digits.length + e).toNat,
      .point ?_, typed_of_append ?_ ?_⟩
    · rwa [List.take_append_drop]
    · rw [List.take_append_drop]
    · rw [List.length_drop]
      omega
  · -- The point stands in front of them.
    rename_i hwhole
    have hdigits : IsDigits
        (['0'] ++ (List.replicate (-(digits.length + e)).toNat '0' ++ digits)) := by
      refine ⟨List.cons_ne_nil _ _, fun c hc => ?_⟩
      rcases List.mem_append.mp hc with hc | hc
      · rw [List.mem_singleton.mp hc]
        rfl
      rcases List.mem_append.mp hc with hc | hc
      · exact isDigit_of_mem_zeros hc
      · exact h.isDigit c hc
    refine ⟨_, _, .point hdigits, typed_of_append ?_ ?_⟩
    · rw [Nat.ofDigitChars_append, Nat.ofDigitChars_append, Nat.ofDigitChars_replicate_zero]
      rfl
    · rw [List.length_append, List.length_replicate]
      omega

/-- A decimal in a message spells the double that is nearest to it. -/
theorem spells_text (d : Decimal) : Spells (text Message.layout d) d.nearest := by
  obtain ⟨whole, fraction, hbody, htyped⟩ :=
    exists_isMantissa_positionalText (isDigits_toDigits d.coefficient) d.exponent
  rw [Nat.ofDigitChars_ten_toDigits] at htyped
  have hmagnitude := represents_nearestMagnitude d
  rw [magnitude, ← htyped] at hmagnitude
  have htext : text Message.layout d
      = if d.negative then
          '-' :: positionalText [] (Nat.toDigits 10 d.coefficient) d.exponent
        else positionalText [] (Nat.toDigits 10 d.coefficient) d.exponent := by
    have hpositional : d.coefficient = 0 ∨ Message.layout.positional d.firstPlace = true :=
    .inr rfl
    simp only [text, if_pos hpositional]
    rfl
  have hnumber {sign : List Char} {negative : Bool} (hsign : IsSign sign negative) :=
    Spells.number hsign hbody .none hmagnitude
  rw [htext, nearest]
  cases d.negative with
  | false => simpa using hnumber .none
  | true => simpa using hnumber .minus

/-- A finite double in a message spells itself. -/
theorem spells_number (hx : x.isFinite = true) : Spells (Message.number x).toList x := by
  have hspells := spells_text (shortest Message.layout.tie x)
  rw [nearest_shortest _ hx] at hspells
  rw [Message.number, Message.withNames, Binary64.isNaN_of_isFinite hx, if_neg Bool.false_ne_true,
    if_pos hx, String.toList_ofList]
  exact hspells

end FlightPlan.Decimal
