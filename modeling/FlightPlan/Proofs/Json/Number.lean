import FlightPlan.Json.Printer
import FlightPlan.Json.Reader

/-!
# `FlightPlan.Proofs.Json.Number`: numbers as they are written

A number is written as one run of digits, signs, points and letters
(`numberText_isRun`), and the scanner gathers such a run whole (`scan_run`). So the
text around a number has no part in what is read for it.

A natural number below `2 ^ 64` reads back (`ofRun_toDigits`). Every beginning of its
digits is a number that is not greater, so none of the digits is left over when they
are gathered.

Doubles have no such theorem. The reader rounds twice, and a double that is written
and read can come back as its neighbour. `ReadsBack` says of one double that it comes
back as itself. Writer and reader can be run on it to see whether it does.
-/

set_option autoImplicit false

namespace FlightPlan.Json

open Token (scan isRunChar ofRun)

/-! ### Runs -/

/-- The text is not empty, and nothing in it ends a name or a number. -/
def IsRun (cs : List Char) : Prop :=
  cs ≠ [] ∧ ∀ c ∈ cs, isRunChar c = true

/-- The text ends a run that stands before it. -/
def EndsRun (rest : List Char) : Prop :=
  ∀ c ∈ rest.head?, isRunChar c = false

/-- The end of a text ends a run. -/
theorem endsRun_nil : EndsRun [] := by
  simp [EndsRun]

/-- A character that is in no run ends one. -/
theorem endsRun_cons {c : Char} (h : isRunChar c = false) (rest : List Char) :
    EndsRun (c :: rest) := by
  simp [EndsRun, h]

namespace Token

/-- A run that is begun is gathered up to its end. -/
theorem scan_run_gathered {run rest : List Char} (gathered : List Char)
    (hrun : ∀ c ∈ run, isRunChar c = true) (hrest : EndsRun rest) :
    scan (.run gathered) (run ++ rest)
      = ofRun (gathered.reverse ++ run) :: scan .between rest := by
  -- The scanner gathers in reverse, and the induction is on what it has not gathered yet.
  induction run generalizing gathered with
  | nil =>
      rw [List.nil_append, List.append_nil]
      cases rest with
      | nil => rfl
      | cons c rest =>
          have hc : isRunChar c = false := hrest c rfl
          simp [scan, advance, hc]
  | cons c run ih =>
      have hc : isRunChar c = true := hrun c List.mem_cons_self
      have hstep : scan (.run gathered) (c :: (run ++ rest))
          = scan (.run (c :: gathered)) (run ++ rest) := by
        simp [scan, advance, hc]
      rw [List.cons_append, hstep, ih _ fun d hd => hrun d (List.mem_cons_of_mem c hd),
        List.reverse_cons, List.append_assoc, List.singleton_append]

/-- Blanks are in no run. -/
theorem isRunChar_of_isBlank {c : Char} (hc : isBlank c = true) : isRunChar c = false := by
  have hcases : ((c = ' ' ∨ c = '\t') ∨ c = '\n') ∨ c = '\r' := by
    simpa [isBlank] using hc
  rcases hcases with ((rfl | rfl) | rfl) | rfl <;> decide

/-- A character of a run is neither blank nor a quotation mark. -/
theorem start_of_isRunChar {c : Char} (hc : isRunChar c = true) : start c = ([], .run [c]) := by
  have hblank : ¬ isBlank c = true := fun hblank => by
    simp [isRunChar_of_isBlank hblank] at hc
  have hquote : c ≠ '"' := by
    rintro rfl
    exact absurd hc (by decide)
  simp [start, hblank, hquote, hc]

/-- A whole run is one token. -/
theorem scan_run {run rest : List Char} (hrun : IsRun run) (hrest : EndsRun rest) :
    scan .between (run ++ rest) = ofRun run :: scan .between rest := by
  obtain ⟨hne, hchars⟩ := hrun
  cases run with
  | nil => exact absurd rfl hne
  | cons c run =>
      have hstep : scan .between (c :: (run ++ rest)) = scan (.run [c]) (run ++ rest) := by
        simp [scan, advance, start_of_isRunChar (hchars c List.mem_cons_self)]
      rw [List.cons_append, hstep,
        scan_run_gathered _ (fun d hd => hchars d (List.mem_cons_of_mem c hd)) hrest]
      rfl

end Token

/-! ### Numbers are written as runs -/

/-- The digits of a number are a run. -/
theorem toDigits_isRun (n : Nat) : IsRun (Nat.toDigits 10 n) := by
  refine ⟨Nat.toDigits_ne_nil, ?_⟩
  intro c hc
  have hdigit : c.isDigit = true := Nat.isDigit_of_mem_toDigits (by decide) (by decide) hc
  simp [isRunChar, Char.isAlphanum, hdigit]

/-- A sign in front is part of the run. -/
theorem IsRun.minus {body : List Char} (h : IsRun body) : IsRun ('-' :: body) := by
  refine ⟨by simp, ?_⟩
  intro c hc
  rcases List.mem_cons.mp hc with rfl | hc
  · decide
  · exact h.2 c hc

/-- Digits stay a run when a point is put among them. -/
theorem IsRun.positionalText {digits : List Char} (h : IsRun digits) (exponent : Int) :
    IsRun (Decimal.positionalText numberLayout.wholeMark digits exponent) := by
  obtain ⟨hne, hdigits⟩ := h
  have hzero : isRunChar '0' = true := by decide
  have hpoint : isRunChar '.' = true := by decide
  simp only [Decimal.positionalText]
  -- The point stands behind the digits, among them, or in front of them.
  split
  · refine ⟨by simp [hne], ?_⟩
    intro c hc
    simp only [numberLayout, List.mem_append, List.mem_cons, List.not_mem_nil, or_false] at hc
    rcases hc with (hc | hc) | rfl | rfl
    · exact hdigits c hc
    · rwa [List.eq_of_mem_replicate hc]
    · exact hpoint
    · exact hzero
  · split
    · refine ⟨by simp, ?_⟩
      intro c hc
      rcases List.mem_append.mp hc with hc | hc
      · exact hdigits c (List.mem_of_mem_take hc)
      rcases List.mem_cons.mp hc with rfl | hc
      · exact hpoint
      · exact hdigits c (List.mem_of_mem_drop hc)
    · refine ⟨by simp, ?_⟩
      intro c hc
      simp only [List.mem_cons, List.mem_append] at hc
      rcases hc with rfl | rfl | hc | hc
      · exact hzero
      · exact hpoint
      · rwa [List.eq_of_mem_replicate hc]
      · exact hdigits c hc

/-- Digits stay a run when an exponent is put behind them. -/
theorem IsRun.scientificText {digits : List Char} (h : IsRun digits) (firstPlace : Int) :
    IsRun (Decimal.scientificText digits firstPlace) := by
  refine ⟨by simp [Decimal.scientificText], ?_⟩
  intro c hc
  simp only [Decimal.scientificText, List.mem_append, List.mem_cons, List.not_mem_nil, or_false,
    or_assoc] at hc
  rcases hc with hc | hc | rfl | rfl | hc
  · exact h.2 c (List.mem_of_mem_take hc)
  · split at hc
    · exact nomatch hc
    rcases List.mem_cons.mp hc with rfl | hc
    · decide
    · exact h.2 c (List.mem_of_mem_drop hc)
  · decide
  · split <;> decide
  · exact (toDigits_isRun _).2 c hc

/-- What is written for a number is a run. -/
theorem numberText_isRun (n : Number) : IsRun (numberText n) := by
  cases n with
  | natural n => exact toDigits_isRun n
  | negative n => exact (toDigits_isRun n).minus
  | real x =>
      show IsRun (Decimal.text numberLayout (Decimal.shortest numberLayout.tie x))
      have hdigits := toDigits_isRun (Decimal.shortest numberLayout.tie x).coefficient
      simp only [Decimal.text]
      split <;> split
      · exact (hdigits.positionalText _).minus
      · exact (hdigits.scientificText _).minus
      · exact hdigits.positionalText _
      · exact hdigits.scientificText _

/-! ### Natural numbers read back -/

namespace Numeral

/-- One digit is pushed, or it and all digits behind it are left over. -/
theorem gatherWhole_cons (significand : Nat) (c : Char) (rest : List Char) :
    gatherWhole significand (c :: rest) =
      match pushDigit significand c with
      | some grown => gatherWhole grown rest
      | none => (significand, rest.length + 1) :=
  (rfl)

/-- What is gathered from digits goes on with the digits behind them. -/
theorem gatherWhole_append {significand grown : Nat} {digits : List Char} (rest : List Char)
    (h : gatherWhole significand digits = (grown, 0)) :
    gatherWhole significand (digits ++ rest) = gatherWhole grown rest := by
  induction digits generalizing significand with
  | nil =>
      obtain rfl : significand = grown := congrArg Prod.fst h
      rfl
  | cons c digits ih =>
      rw [gatherWhole_cons] at h
      rw [List.cons_append, gatherWhole_cons]
      cases hpush : pushDigit significand c with
      | none => simp [hpush] at h
      | some next =>
          rw [hpush] at h
          exact ih h

/-- The digits of a number that fits 64 bits are gathered to that number. -/
theorem gatherWhole_toDigits {n : Nat} (hn : n < UInt64.size) :
    gatherWhole 0 (Nat.toDigits 10 n) = (n, 0) := by
  have hpush {front digit : Nat} (hdigit : digit < 10)
      (hfits : 10 * front + digit < UInt64.size) :
      gatherWhole front [Nat.digitChar digit] = (10 * front + digit, 0) := by
    have hvalue : (Nat.digitChar digit).toNat - '0'.toNat = digit := by
      rw [Nat.toNat_digitChar_of_lt_ten hdigit]
      simp
    have hpushed : pushDigit front (Nat.digitChar digit) = some (10 * front + digit) := by
      simp only [pushDigit, hvalue, wordBound, if_pos hfits]
    rw [gatherWhole_cons, hpushed]
    rfl
  -- The last digit is pushed onto the number that the digits before it spell.
  induction n using Nat.strongRecOn with
  | ind n ih =>
      rcases Nat.lt_or_ge n 10 with hsmall | hlarge
      · rw [Nat.toDigits_of_lt_base hsmall, hpush hsmall (by omega), Nat.mul_zero, Nat.zero_add]
      · have hfront : gatherWhole 0 (Nat.toDigits 10 (n / 10)) = (n / 10, 0) :=
          ih (n / 10) (by omega) (by omega)
        rw [Nat.toDigits_of_base_le (by decide) hlarge, gatherWhole_append _ hfront,
          hpush (by omega) (by omega)]
        rw [Nat.div_add_mod]

/-- A number but zero is not written with a zero in front. -/
theorem head?_toDigits_ne_zero {n : Nat} (hn : n ≠ 0) : (Nat.toDigits 10 n).head? ≠ some '0' := by
  induction n using Nat.strongRecOn with
  | ind n ih =>
      rcases Nat.lt_or_ge n 10 with hsmall | hlarge
      · rw [Nat.toDigits_of_lt_base hsmall]
        simpa using mt Nat.digitChar_eq_zero.mp hn
      · have hfront := ih (n / 10) (by omega) (by omega)
        rw [Nat.toDigits_of_base_le (by decide) hlarge, List.head?_append]
        cases hdigits : Nat.toDigits 10 (n / 10) with
        | nil => exact absurd hdigits Nat.toDigits_ne_nil
        | cons c rest => simpa [hdigits] using hfront

/-- The digits of a number can stand in front of a point. -/
theorem isWholePart_toDigits (n : Nat) : isWholePart (Nat.toDigits 10 n) = true := by
  by_cases hn : n = 0
  · rw [hn]
    rfl
  have hhead := head?_toDigits_ne_zero hn
  cases hdigits : Nat.toDigits 10 n with
  | nil => exact absurd hdigits Nat.toDigits_ne_nil
  | cons c rest =>
      rw [hdigits] at hhead
      cases rest with
      | nil => rfl
      | cons d rest => simpa [isWholePart] using hhead

/-- Digits alone are a numeral without sign, fraction and exponent. -/
theorem read_toDigits (n : Nat) :
    read (Nat.toDigits 10 n) = some ⟨false, Nat.toDigits 10 n, [], none⟩ := by
  have hdigits : ∀ c ∈ Nat.toDigits 10 n, c.isDigit = true := fun c hc =>
    Nat.isDigit_of_mem_toDigits (by decide) (by decide) hc
  have htake : (Nat.toDigits 10 n).takeWhile Char.isDigit = Nat.toDigits 10 n := by
    rw [← List.append_nil (Nat.toDigits 10 n), List.takeWhile_append_of_pos hdigits]
    rfl
  have hdrop : (Nat.toDigits 10 n).dropWhile Char.isDigit = [] := by
    rw [← List.append_nil (Nat.toDigits 10 n), List.dropWhile_append_of_pos hdigits]
    rfl
  have hunsigned : ∀ rest, Nat.toDigits 10 n ≠ '-' :: rest := by
    intro rest h
    exact absurd (hdigits '-' (by simp [h])) (by decide)
  rw [read.eq_2 _ hunsigned]
  simp [htake, hdrop, isWholePart_toDigits, read.readFraction]

end Numeral

/-- A natural number that fits 64 bits is read back from its digits. -/
theorem ofRun_toDigits {n : Nat} (hn : n < UInt64.size) :
    ofRun (Nat.toDigits 10 n) = .leaf (.number (.natural n)) := by
  have hname {name : List Char} (h : name.head?.any Char.isDigit = false) :
      Nat.toDigits 10 n ≠ name := by
    -- A name begins with a letter, and a number with a digit.
    rintro rfl
    cases hdigits : Nat.toDigits 10 n with
    | nil => exact Nat.toDigits_ne_nil hdigits
    | cons c rest =>
        have hc : c.isDigit = true :=
          Nat.isDigit_of_mem_toDigits (b := 10) (n := n) (by decide) (by decide)
            (by simp [hdigits])
        simp [hdigits, hc] at h
  have hvalue : Numeral.value ⟨false, Nat.toDigits 10 n, [], none⟩ = some (.natural n) := by
    simp [Numeral.value, Numeral.gatherWhole_toDigits hn]
  rw [ofRun, if_neg (hname (by decide)), if_neg (hname (by decide)), if_neg (hname (by decide)),
    Numeral.read_toDigits]
  simp only [Token.ofNumeral, hvalue]

/-! ### Doubles that read back -/

/-- The double is read back from what is written for it. -/
def ReadsBack (x : Float) : Prop :=
  read (text .compact (.number (.real x))) = some (.number (.real x))

/-- The double that a document is on its own. -/
def real? : Json → Option Float
  | .number (.real x) => some x
  | _ => none

/-- Whether a double is read back, by what is found in place of it. -/
theorem readsBack_iff {x : Float} :
    ReadsBack x ↔ (read (text .compact (.number (.real x)))).bind real? = some x := by
  rw [ReadsBack]
  constructor
  · intro h
    rw [h]
    rfl
  · intro h
    obtain ⟨j, hread, hreal⟩ := Option.bind_eq_some_iff.mp h
    rw [hread]
    cases j with
    | number n =>
        cases n with
        | real y => rw [Option.some.inj hreal]
        | _ => exact nomatch hreal
    | _ => exact nomatch hreal

/-- It can be decided whether a double is read back. -/
instance (x : Float) : Decidable (ReadsBack x) :=
  decidable_of_iff _ readsBack_iff.symm

/-- What is read for a run on its own is the token of the run. -/
theorem ofRun_of_read {run : List Char} (hrun : IsRun run) {n : Number}
    (h : read (String.ofList run) = some (.number n)) : ofRun run = .leaf (.number n) := by
  have hscan : Token.scan .between run = [ofRun run] := by
    simpa [scan, Token.atEnd] using Token.scan_run hrun endsRun_nil
  rw [read, readPrefix, String.toList_ofList, hscan] at h
  -- From no other token than its own a number can be read.
  cases htoken : ofRun run with
  | leaf value =>
      rw [htoken] at h
      obtain rfl : value = .number n := by
        simpa [Reading.run, Reading.step, beginValue, complete] using h
      rfl
  | text content =>
      rw [htoken] at h
      cases content <;> simp [Reading.run, Reading.step, beginValue, complete, ofContent] at h
  | _ =>
      rw [htoken] at h
      simp [Reading.run, Reading.step, beginValue] at h

/-- A double that is read back is the one token of its text. -/
theorem ReadsBack.ofRun {x : Float} (h : ReadsBack x) :
    ofRun (numberText (.real x)) = .leaf (.number (.real x)) :=
  ofRun_of_read (numberText_isRun _) h

end FlightPlan.Json
