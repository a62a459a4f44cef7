import FlightPlan.Proofs.Binary64.Quotient
import FlightPlan.Proofs.Json.Number

/-!
# `FlightPlan.Proofs.Json.Finite`: numbers that are read are finite

A document cannot say infinity. Its numerals are of any length, but a number past the range of
doubles is refused, and so every number in a value that was read is finite
(`finite_of_readStrict`). Two invariants carry this:

* Digits are gathered into a word (`gatherWhole_lt`, `gatherFraction_lt`), and a word that is
  scaled by a power of ten is finite (`isFinite_scale`). Multiplication is checked, and division
  is by powers that are not below one.
* The reader keeps finite what is on its stack (`Step.Finite`), whatever token comes next.
-/

set_option autoImplicit false

namespace FlightPlan.Json

open Binary64
open Float.Model (UnpackedFloat Format totalExponent)

/-! ### Numerals -/

namespace Numeral

/-- From the twenty-third on, a power of ten is a rounded one. -/
theorem tenPow_of_ge {k : Nat} (hk : 23 ≤ k) :
    tenPow k = .ofModel (.pack (UnpackedFloat.ofScientific .binary64 1 k)) := by
  rw [tenPow]
  unfold Float.ofScientific
  rw [dif_neg (by omega)]
  rfl

/-- A power of ten is not below one. -/
theorem atLeastOne_tenPow (k : Nat) : AtLeastOne (tenPow k).toModel.unpack := by
  rcases Nat.lt_or_ge k 23 with hsmall | hlarge
  · -- The first powers stand in a table.
    revert k
    decide +kernel
  rw [tenPow_of_ge hlarge]
  -- The others are rounded from the exact power, unless that is beyond all doubles.
  rcases Nat.lt_or_ge 2048 k with hhuge | hk
  · have hresult : UnpackedFloat.ofScientific .binary64 1 k = .infinity .positive := by
      unfold UnpackedFloat.ofScientific
      rw [dif_neg (by decide), if_pos]
      show (k : Int) > 2048
      omega
    rw [hresult]
    exact .infinity _
  · have hdigits : 53 ≤ ((1 <<< 53) * Nat.pow 10 k).log2 := by
      have hleast : Nat.pow 2 53 ≤ (1 <<< 53) * Nat.pow 10 k :=
        Nat.le_mul_of_pos_right _ (Nat.pow_pos (by decide))
      exact log2_mono hleast
    have htotal : 1 ≤ totalExponent ((1 <<< 53) * Nat.pow 10 k) (-53 + 0) := by
      rw [totalExponent]
      omega
    obtain ⟨n, f, hn, hround, hlog, hplace⟩ :=
      roundWithAccuracy_eq_finite .positive .exact hdigits htotal
    have hresult : UnpackedFloat.ofScientific .binary64 1 k = .finite .positive n f hn := by
      rw [ofScientific_natCast (by decide) hk]
      exact hround
    rw [hresult]
    exact atLeastOne_unpack_pack hn hlog hplace

/-- A significand with one more digit still fits into a word. -/
theorem pushDigit_lt {significand grown : Nat} {c : Char}
    (h : pushDigit significand c = some grown) : grown < wordBound := by
  simp only [pushDigit] at h
  split at h
  · rename_i hlt
    obtain rfl := Option.some.inj h
    exact hlt
  · contradiction

/-- The digits before the point are gathered as long as they fit into a word. -/
theorem gatherWhole_lt {significand : Nat} (h : significand < wordBound) (cs : List Char) :
    (gatherWhole significand cs).1 < wordBound := by
  induction cs generalizing significand with
  | nil => exact h
  | cons c rest ih =>
      rw [gatherWhole_cons]
      cases hpush : pushDigit significand c with
      | none => exact h
      | some grown => exact ih (pushDigit_lt hpush)

/-- A digit behind the point is taken if there is room for it. -/
theorem gatherFraction_cons (significand taken : Nat) (c : Char) (rest : List Char) :
    gatherFraction significand taken (c :: rest) =
      match pushDigit significand c with
      | some grown => gatherFraction grown (taken + 1) rest
      | none => (significand, taken) :=
  (rfl)

/-- The digits behind the point are gathered as long as they fit into a word too. -/
theorem gatherFraction_lt {significand : Nat} (h : significand < wordBound) (taken : Nat)
    (cs : List Char) : (gatherFraction significand taken cs).1 < wordBound := by
  induction cs generalizing significand taken with
  | nil => exact h
  | cons c rest ih =>
      rw [gatherFraction_cons]
      cases hpush : pushDigit significand c with
      | none => exact h
      | some grown => exact ih (pushDigit_lt hpush) (taken + 1)

/-- A word that is scaled is finite. -/
theorem isFinite_scale {significand : Nat} {exponent : Int} {x : Float}
    (hword : significand < wordBound) (h : scale significand exponent = some x) :
    x.isFinite = true := by
  have hsignificand : Bounded 14 (Float.ofNat significand) := bounded_ofNat hword
  have hquotient (k : Nat) : Bounded 68 (Float.ofNat significand / tenPow k) :=
    hsignificand.div (atLeastOne_tenPow k) (by decide) (by decide) (by decide)
  simp only [scale] at h
  -- Only a product can overflow, and the reader refuses it then. What is divided is bounded.
  split at h
  · split at h
    · obtain rfl := Option.some.inj h
      exact hsignificand.isFinite (by decide)
    · exact nomatch h
  split at h
  · split at h
    · rename_i hfinite
      obtain rfl := Option.some.inj h
      exact hfinite
    · exact nomatch h
  split at h
  · obtain rfl := Option.some.inj h
    exact (hquotient _).isFinite (by decide)
  split at h
  · obtain rfl := Option.some.inj h
    have htwice : Bounded 122
        (Float.ofNat significand / tenPow 308 / tenPow (-(exponent + 308)).toNat) :=
      (hquotient 308).div (atLeastOne_tenPow _) (by decide) (by decide) (by decide)
    exact htwice.isFinite (by decide)
  · obtain rfl := Option.some.inj h
    decide

/-- A numeral stands for a finite number. -/
theorem isFinite_value {n : Numeral} {number : Number} (h : n.value = some number) :
    number.toFloat.isFinite = true := by
  have hword : (gatherWhole 0 n.whole).1 < wordBound := gatherWhole_lt (by decide) n.whole
  rw [value] at h
  generalize gatherWhole 0 n.whole = gathered at *
  obtain ⟨significand, leftOver⟩ := gathered
  have hwhole : Bounded 14 (Float.ofNat significand) := bounded_ofNat hword
  have hminus : Bounded 14 (-Float.ofNat significand) := hwhole.neg (by decide) (by decide)
  simp only at h
  -- A numeral without fraction and exponent is a whole number, or a double if it is too long.
  split at h
  · split at h
    · obtain rfl := Option.some.inj h
      exact hwhole.isFinite (by decide)
    split at h
    · obtain rfl := Option.some.inj h
      exact hminus.isFinite (by decide)
    · obtain rfl := Option.some.inj h
      exact hminus.isFinite (by decide)
  · have hfraction := gatherFraction_lt hword 0 n.fraction
    obtain ⟨x, hscale, rfl⟩ := Option.map_eq_some_iff.mp h
    have hx := isFinite_scale hfraction hscale
    show (if n.negative then -x else x).isFinite = true
    split
    · exact ((isFinite_iff_bounded.mp hx).neg (by decide) (by decide)).isFinite (by decide)
    · exact hx

end Numeral

/-! ### Values -/

/-- Every number of the value is finite. -/
inductive Finite : Json → Prop
  | null : Finite .null
  | bool (b : Bool) : Finite (.bool b)
  | number {n : Number} (h : n.toFloat.isFinite = true) : Finite (.number n)
  | string (s : String) : Finite (.string s)
  | array {items : List Json} (h : ∀ item ∈ items, Finite item) : Finite (.array items)
  | object {members : List (String × Json)} (h : ∀ member ∈ members, Finite member.2) :
    Finite (.object members)
  | unrepresentable : Finite .unrepresentable

/-- What is true of the results for all entries is true of the results of a list. -/
theorem forall_mem_of_mapM {α β : Type} {f : α → Option β} {P : α → Prop} {Q : β → Prop}
    (hf : ∀ a b, P a → f a = some b → Q b) {as : List α} {bs : List β} (h : as.mapM f = some bs)
    (has : ∀ a ∈ as, P a) : ∀ b ∈ bs, Q b := by
  induction as generalizing bs with
  | nil =>
      obtain rfl := Option.some.inj h
      exact fun _ hb => nomatch hb
  | cons a as ih =>
      rw [List.forall_mem_cons] at has
      rw [List.mapM_cons] at h
      obtain ⟨b, hb, h⟩ := Option.bind_eq_some_iff.mp h
      obtain ⟨rest, hrest, h⟩ := Option.bind_eq_some_iff.mp h
      obtain rfl := Option.some.inj h
      rw [List.forall_mem_cons]
      exact ⟨hf a b has.1 hb, ih hrest has.2⟩

/-! ### Tokens -/

/-- A number in the token is finite. -/
def Token.Finite : Token → Prop
  | .leaf value => value.Finite
  | _ => True

namespace Token

/-- A run of characters is a literal, a finite number or nothing that can be read. -/
theorem finite_ofRun (run : List Char) : (ofRun run).Finite := by
  unfold ofRun
  split
  · exact Json.Finite.null
  split
  · exact Json.Finite.bool true
  split
  · exact Json.Finite.bool false
  cases Numeral.read run with
  | none => trivial
  | some numeral =>
      show (ofNumeral numeral).Finite
      rw [ofNumeral]
      cases hvalue : numeral.value with
      | none => exact .unrepresentable
      | some n => exact .number (Numeral.isFinite_value hvalue)

/-- The body of a text makes a token without a number. -/
theorem finite_ofBody (body : List Char) : (ofBody body).Finite := by
  rw [ofBody]
  cases unescape body <;> trivial

/-- A punctuation mark makes a token without a number. -/
theorem finite_ofPunctuation (c : Char) : (ofPunctuation c).Finite := by
  unfold ofPunctuation
  repeat' split
  all_goals trivial

/-- What the first character of a token completes holds no number. -/
theorem finite_start (c : Char) : ∀ token ∈ (start c).1, token.Finite := by
  unfold start
  split
  · exact fun _ h => nomatch h
  split
  · exact fun _ h => nomatch h
  split
  · exact fun _ h => nomatch h
  · simpa using finite_ofPunctuation c

/-- What a further character completes is finite. -/
theorem finite_advance (mode : Mode) (c : Char) : ∀ token ∈ (advance mode c).1, token.Finite := by
  cases mode with
  | between => exact finite_start c
  | run gathered =>
      simp only [advance]
      split
      · exact List.forall_mem_nil _
      · rw [List.forall_mem_cons]
        exact ⟨finite_ofRun _, finite_start c⟩
  | text gathered escaping =>
      simp only [advance]
      split
      · simpa using finite_ofBody gathered.reverse
      split
      · rw [List.forall_mem_singleton]
        trivial
      · exact List.forall_mem_nil _

/-- Whatever the text, the numbers in its tokens are finite. -/
theorem finite_scan (mode : Mode) (cs : List Char) : ∀ token ∈ scan mode cs, token.Finite := by
  induction cs generalizing mode with
  | nil =>
      cases mode with
      | between => exact fun _ h => nomatch h
      | run gathered => simpa [scan, atEnd] using finite_ofRun gathered.reverse
      | text gathered escaping =>
          rw [scan, atEnd, List.forall_mem_singleton]
          trivial
  | cons c rest ih =>
      show ∀ token ∈ (advance mode c).1 ++ scan (advance mode c).2 rest, token.Finite
      rw [List.forall_mem_append]
      exact ⟨finite_advance mode c, ih _⟩

end Token

/-! ### Reading -/

/-- The values in an open array or object are finite. -/
def Frame.Finite : Frame → Prop
  | .array items => ∀ item ∈ items, item.Finite
  | .object members => ∀ member ∈ members, Json.Finite member.2
  | .member members _ => ∀ member ∈ members, Json.Finite member.2

/-- The values that a step leaves are finite. -/
def Step.Finite : Step → Prop
  | .more reading => ∀ frame ∈ reading.stack, frame.Finite
  | .done value => value.Finite

/-- An object of finite members is finite, whether or not all of them have a key. -/
theorem finite_ofMembers {members : List (Option String × Json)}
    (h : ∀ member ∈ members, Json.Finite member.2) : (ofMembers members).Finite := by
  unfold ofMembers
  split
  · rename_i named hnamed
    refine .object (forall_mem_of_mapM ?_ hnamed h)
    rintro ⟨key, value⟩ member hvalue hmember
    obtain ⟨text, -, rfl⟩ := Option.map_eq_some_iff.mp hmember
    exact hvalue
  · exact .unrepresentable

/-- A text makes a document without a number. -/
theorem finite_ofContent (content : Option String) : (ofContent content).Finite := by
  cases content with
  | none => exact .unrepresentable
  | some s => exact .string s

variable {stack : List Frame} {token : Token} {step : Step}

/-- A complete value goes where the others are. -/
theorem finite_complete {value : Json} (hvalue : value.Finite)
    (hstack : ∀ frame ∈ stack, frame.Finite) (h : complete value stack = some step) :
    step.Finite := by
  cases stack with
  | nil =>
      obtain rfl := Option.some.inj h
      exact hvalue
  | cons frame rest =>
      rw [List.forall_mem_cons] at hstack
      cases frame with
      | object members => exact nomatch h
      | array items =>
          obtain rfl := Option.some.inj h
          have hitems : ∀ item ∈ value :: items, item.Finite :=
            List.forall_mem_cons.mpr ⟨hvalue, hstack.1⟩
          exact List.forall_mem_cons.mpr ⟨hitems, hstack.2⟩
      | member members key =>
          obtain rfl := Option.some.inj h
          have hmembers : ∀ member ∈ (key, value) :: members, Json.Finite member.2 :=
            List.forall_mem_cons.mpr ⟨hvalue, hstack.1⟩
          exact List.forall_mem_cons.mpr ⟨hmembers, hstack.2⟩

/-- Beginning a value keeps finite what has been read. -/
theorem finite_beginValue (htoken : token.Finite) (hstack : ∀ frame ∈ stack, frame.Finite)
    (h : beginValue stack token = some step) : step.Finite := by
  cases token with
  | leaf value => exact finite_complete htoken hstack h
  | text content => exact finite_complete (finite_ofContent content) hstack h
  | openArray =>
      obtain rfl := Option.some.inj h
      exact List.forall_mem_cons.mpr ⟨nofun, hstack⟩
  | openObject =>
      obtain rfl := Option.some.inj h
      exact List.forall_mem_cons.mpr ⟨nofun, hstack⟩
  | closeArray => exact nomatch h
  | closeObject => exact nomatch h
  | comma => exact nomatch h
  | colon => exact nomatch h
  | invalid => exact nomatch h

/-- Beginning a member keeps finite what has been read. -/
theorem finite_beginMember (hstack : ∀ frame ∈ stack, frame.Finite)
    (h : beginMember stack token = some step) : step.Finite := by
  unfold beginMember at h
  split at h
  · obtain rfl := Option.some.inj h
    rw [List.forall_mem_cons] at hstack
    exact List.forall_mem_cons.mpr ⟨hstack.1, hstack.2⟩
  · exact nomatch h

/-- Closing a list or an object keeps finite what has been read. -/
theorem finite_close (hstack : ∀ frame ∈ stack, frame.Finite)
    (h : close stack token = some step) : step.Finite := by
  unfold close at h
  split at h
  · rw [List.forall_mem_cons] at hstack
    refine finite_complete (.array ?_) hstack.2 h
    exact fun item hitem => hstack.1 item (List.mem_reverse.mp hitem)
  · rw [List.forall_mem_cons] at hstack
    refine finite_complete (finite_ofMembers ?_) hstack.2 h
    exact fun member hmember => hstack.1 member (List.mem_reverse.mp hmember)
  · exact nomatch h

/-- Going on behind a comma keeps finite what has been read. -/
theorem finite_afterComma (hstack : ∀ frame ∈ stack, frame.Finite)
    (h : afterComma stack = some step) : step.Finite := by
  unfold afterComma at h
  split at h
  · obtain rfl := Option.some.inj h
    exact hstack
  · obtain rfl := Option.some.inj h
    exact hstack
  · exact nomatch h

/-- One token leaves finite values when it comes to finite values. -/
theorem Reading.finite_step {r : Reading} (htoken : token.Finite)
    (hstack : ∀ frame ∈ r.stack, frame.Finite) (h : r.step token = some step) : step.Finite := by
  unfold Reading.step at h
  split at h
  · exact finite_beginValue htoken hstack h
  · split at h
    · exact finite_close hstack h
    · exact finite_beginValue htoken hstack h
  · exact finite_beginMember hstack h
  · split at h
    · exact finite_close hstack h
    · exact finite_beginMember hstack h
  · split at h
    · obtain rfl := Option.some.inj h
      exact hstack
    · exact nomatch h
  · split at h
    · exact finite_afterComma hstack h
    · exact finite_close hstack h

/-- So does a whole run of the reader. -/
theorem Reading.finite_run {r : Reading} {tokens rest : List Token} {value : Json}
    (htokens : ∀ token ∈ tokens, token.Finite) (hstack : ∀ frame ∈ r.stack, frame.Finite)
    (h : r.run tokens = some (value, rest)) : value.Finite := by
  -- The invariant is that all values on the stack are finite.
  induction tokens generalizing r with
  | nil => exact nomatch h
  | cons token tokens ih =>
      rw [List.forall_mem_cons] at htokens
      rw [Reading.run] at h
      cases hstep : r.step token with
      | none => simp [hstep] at h
      | some step =>
          have hfinite := finite_step htokens.1 hstack hstep
          rw [hstep] at h
          cases step with
          | done result =>
              obtain ⟨rfl, -⟩ := Prod.mk.inj (Option.some.inj h)
              exact hfinite
          | more next => exact ih htokens.2 hfinite h

/-- Numbers that are read are finite. -/
theorem finite_of_readStrict {text : String} {value : Json} (h : readStrict text = some value) :
    value.Finite := by
  obtain ⟨hread, -⟩ := Option.filter_eq_some_iff.mp h
  unfold read at hread
  split at hread
  · rename_i result hprefix
    obtain rfl := Option.some.inj hread
    have hstack : ∀ frame ∈ (⟨.value, []⟩ : Reading).stack, frame.Finite := nofun
    exact Reading.finite_run (Token.finite_scan _ _) hstack hprefix
  · exact nomatch hread

/-- A number in a finite value is finite. -/
theorem Finite.isFinite {j : Json} (h : j.Finite) {x : Float} (hx : j.float? = some x) :
    x.isFinite = true := by
  cases h with
  | number hn =>
      obtain rfl := Option.some.inj hx
      exact hn
  | null => exact nomatch hx
  | bool b => exact nomatch hx
  | string s => exact nomatch hx
  | array h => exact nomatch hx
  | object h => exact nomatch hx
  | unrepresentable => exact nomatch hx

end FlightPlan.Json
