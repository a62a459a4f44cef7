import FlightPlan.Decimal.Reader
import FlightPlan.Proofs.Decimal.Nearest
import FlightPlan.Proofs.Text.Blank

/-!
# `FlightPlan.Proofs.Decimal.Reader`: which texts are doubles, and which doubles they are

`Spells cs x` is the grammar of typed numbers, with what they mean, and it does not mention the
reader. A text spells a double when it is an optional sign and one of three things: the name of
what is not a number, a name of infinity, both in letters of any case, or digits with an optional
point and exponent. The digits stand for an exact number (`typed`), and the double is what this
number is rounded to, with the sign put in front of it, so that a zero can be negative.

The reader takes exactly these texts, and makes that double of each (`readFloat_eq_some_iff`).
Where the grammar leaves open how a text is taken apart, the reader does not: a sign is no
beginning of a name or of digits, no name begins like digits (`IsMantissa.head`,
`not_lt_of_name`), and digits end where a point or an exponent begins (`split_mantissa`).
-/

set_option autoImplicit false

namespace FlightPlan.Decimal

open Binary64 (Represents)

variable {cs sign body tail whole fraction digits : List Char} {negative : Bool} {e : ℤ}
  {x : Float}

/-! ### How numbers are spelled -/

/-- An optional sign, and whether it is a minus. -/
inductive IsSign : List Char → Bool → Prop
  | none : IsSign [] false
  | plus : IsSign ['+'] false
  | minus : IsSign ['-'] true

/-- There are digits and nothing else. -/
structure IsDigits (cs : List Char) : Prop where
  nonempty : cs ≠ []
  isDigit (c : Char) : c ∈ cs → c.isDigit = true

/-- Digits in front of an optional point and behind it, at least one in all. -/
inductive IsMantissa : List Char → List Char → List Char → Prop
  | whole {whole : List Char} (h : IsDigits whole) : IsMantissa whole whole []
  | point {whole fraction : List Char} (h : IsDigits (whole ++ fraction)) :
      IsMantissa (whole ++ '.' :: fraction) whole fraction

/-- The whole number that a sign and digits stand for. -/
def signedNumber (negative : Bool) (digits : List Char) : ℤ :=
  if negative then -Nat.ofDigitChars 10 digits 0 else Nat.ofDigitChars 10 digits 0

/-- Nothing, or a letter and a whole number with an optional sign. -/
inductive IsExponent : List Char → ℤ → Prop
  | none : IsExponent [] 0
  | some {letter : Char} {sign digits : List Char} {negative : Bool}
      (hletter : letter = 'e' ∨ letter = 'E') (hsign : IsSign sign negative)
      (hdigits : IsDigits digits) :
      IsExponent (letter :: (sign ++ digits)) (signedNumber negative digits)

/-- The number that digits in front of a point and behind it stand for, with an exponent. -/
def typed (whole fraction : List Char) (e : ℤ) : ℚ :=
  (Nat.ofDigitChars 10 whole 0 + Nat.ofDigitChars 10 fraction 0 / 10 ^ fraction.length) * 10 ^ e

/-- The text spells the double. -/
inductive Spells : List Char → Float → Prop
  /-- What is not a number has a name, and a sign does not matter to it. -/
  | nan {sign name : List Char} {negative : Bool} (hsign : IsSign sign negative)
      (hname : name.map Char.toLower = "nan".toList) : Spells (sign ++ name) (0.0 / 0.0)
  /-- Infinity has two names. -/
  | infinity {sign name : List Char} {negative : Bool} (hsign : IsSign sign negative)
      (hname : name.map Char.toLower = "inf".toList
        ∨ name.map Char.toLower = "infinity".toList) :
      Spells (sign ++ name) (if negative then -(1.0 / 0.0) else 1.0 / 0.0)
  /-- Digits spell the double that is nearest to their number, be it zero or infinity. -/
  | number {sign body whole fraction tail : List Char} {negative : Bool} {e : ℤ}
      {magnitude : Float} (hsign : IsSign sign negative) (hbody : IsMantissa body whole fraction)
      (htail : IsExponent tail e) (hmagnitude : Represents (typed whole fraction e) magnitude) :
      Spells (sign ++ (body ++ tail)) (if negative then -magnitude else magnitude)

/-! ### Signs and exponents -/

/-- The sign is taken off, and only that. -/
theorem exists_isSign (h : takeSign cs = (negative, body)) :
    ∃ sign, IsSign sign negative ∧ cs = sign ++ body := by
  unfold takeSign at h
  split at h <;> cases h
  · exact ⟨['+'], .plus, rfl⟩
  · exact ⟨['-'], .minus, rfl⟩
  · exact ⟨[], .none, rfl⟩

/-- A sign is taken off what does not begin with one. -/
theorem takeSign_append (hsign : IsSign sign negative)
    (hbody : ∀ c ∈ body.head?, c ≠ '+' ∧ c ≠ '-') :
    takeSign (sign ++ body) = (negative, body) := by
  cases hsign with
  | none =>
      rw [List.nil_append]
      unfold takeSign
      split
      · exact absurd rfl (hbody '+' rfl).1
      · exact absurd rfl (hbody '-' rfl).2
      · rfl
  | plus => rfl
  | minus => rfl

/-- Digits begin with a digit. -/
theorem IsDigits.head (h : IsDigits digits) {c : Char} (hc : c ∈ digits.head?) :
    c.isDigit = true :=
  h.isDigit c (List.mem_of_mem_head? hc)

/-- A digit is no sign. -/
theorem ne_sign_of_isDigit {c : Char} (hc : c.isDigit = true) : c ≠ '+' ∧ c ≠ '-' := by
  constructor <;> rintro rfl <;> contradiction

/-- One digit or more, as the reader tests it. -/
theorem isDigits_iff : IsDigits cs ↔ (cs.isEmpty || !cs.all Char.isDigit) = false := by
  rw [Bool.or_eq_false_iff, Bool.not_eq_false', List.all_eq_true, List.isEmpty_eq_false_iff]
  exact ⟨fun h => ⟨h.nonempty, h.isDigit⟩, fun h => ⟨h.1, h.2⟩⟩

/-- Behind the letter, a sign and digits are read as the exponent. -/
theorem readExponent_eq_some_iff :
    readExponent cs = some e ↔ ∃ sign negative digits, cs = sign ++ digits
      ∧ IsSign sign negative ∧ IsDigits digits ∧ e = signedNumber negative digits := by
  have hread {negative : Bool} {digits : List Char} (hsplit : takeSign cs = (negative, digits)) :
      readExponent cs
        = if (digits.isEmpty || !digits.all Char.isDigit) = true then none
          else some (signedNumber negative digits) := by
    rw [readExponent, hsplit]
    rfl
  constructor
  · intro h
    cases hsplit : takeSign cs with
    | mk negative digits =>
        obtain ⟨sign, hsign, hcs⟩ := exists_isSign hsplit
        rw [hread hsplit] at h
        split at h
        · cases h
        · rename_i hdigits
          cases h
          exact ⟨sign, negative, digits, hcs, hsign,
            isDigits_iff.mpr (Bool.not_eq_true _ ▸ hdigits), rfl⟩
  · rintro ⟨sign, negative, digits, rfl, hsign, hdigits, rfl⟩
    have hsplit : takeSign (sign ++ digits) = (negative, digits) :=
      takeSign_append hsign fun c hc => ne_sign_of_isDigit (hdigits.head hc)
    rw [hread hsplit, isDigits_iff.mp hdigits]
    rfl

/-- What follows the mantissa is read as an exponent exactly when it is one. -/
theorem readExponentPart_eq_some_iff : readExponentPart cs = some e ↔ IsExponent cs e := by
  constructor
  · intro h
    cases cs with
    | nil =>
        cases h
        exact .none
    | cons c rest =>
        simp only [readExponentPart] at h
        split at h
        · rename_i hletter
          obtain ⟨sign, negative, digits, rfl, hsign, hdigits, rfl⟩ :=
            readExponent_eq_some_iff.mp h
          exact .some hletter hsign hdigits
        · cases h
  · intro h
    cases h with
    | none => rfl
    | some hletter hsign hdigits =>
        rw [readExponentPart, if_pos hletter]
        exact readExponent_eq_some_iff.mpr ⟨_, _, _, rfl, hsign, hdigits, rfl⟩

/-! ### Digits with a point and an exponent -/

/-- The digits behind a point, and the text after them. -/
def splitFraction : List Char → List Char × List Char
  | '.' :: rest => (rest.takeWhile Char.isDigit, rest.dropWhile Char.isDigit)
  | rest => ([], rest)

/-- The reader of unsigned numbers, with what its pattern matching splits off named. -/
theorem readUnsigned_eq (negative : Bool) (cs : List Char) :
    readUnsigned negative cs
      = if ((cs.takeWhile Char.isDigit).isEmpty
            && (splitFraction (cs.dropWhile Char.isDigit)).1.isEmpty) = true then none
        else (readExponentPart (splitFraction (cs.dropWhile Char.isDigit)).2).bind fun e =>
          some ⟨negative,
            Nat.ofDigitChars 10
              (cs.takeWhile Char.isDigit ++ (splitFraction (cs.dropWhile Char.isDigit)).1) 0,
            e - (splitFraction (cs.dropWhile Char.isDigit)).1.length⟩ :=
  rfl

/-- Digits are split off, and with them a point and the digits behind it. -/
theorem exists_isMantissa
    (h : ¬ ((cs.takeWhile Char.isDigit).isEmpty
      && (splitFraction (cs.dropWhile Char.isDigit)).1.isEmpty) = true) :
    ∃ body, cs = body ++ (splitFraction (cs.dropWhile Char.isDigit)).2
      ∧ IsMantissa body (cs.takeWhile Char.isDigit)
          (splitFraction (cs.dropWhile Char.isDigit)).1 := by
  have hcs := List.takeWhile_append_dropWhile (p := Char.isDigit) (l := cs)
  rw [Bool.and_eq_true, List.isEmpty_iff, List.isEmpty_iff, ← List.append_eq_nil_iff] at h
  generalize hrest : cs.dropWhile Char.isDigit = rest at h hcs ⊢
  unfold splitFraction at h ⊢
  split at h
  · rename_i rest
    refine ⟨cs.takeWhile Char.isDigit ++ '.' :: rest.takeWhile Char.isDigit, ?_, .point ⟨h, ?_⟩⟩
    · rw [List.append_assoc, List.cons_append, List.takeWhile_append_dropWhile, hcs]
    · intro c hc
      rcases List.mem_append.mp hc with hc | hc <;> exact Text.of_mem_takeWhile hc
  · rw [List.append_nil] at h
    exact ⟨_, hcs.symm, .whole ⟨h, fun c hc => Text.of_mem_takeWhile hc⟩⟩

/-- An exponent begins neither with a digit nor with a point, so the mantissa ends before it. -/
theorem IsExponent.head (h : IsExponent tail e) :
    ∀ c ∈ tail.head?, c.isDigit = false ∧ c ≠ '.' := by
  intro c hc
  cases h with
  | none => cases hc
  | some hletter hsign hdigits =>
      cases hc
      rcases hletter with rfl | rfl <;> decide

/-- The digits of a mantissa are split off again, and the exponent is left. -/
theorem split_mantissa (hbody : IsMantissa body whole fraction) (htail : IsExponent tail e) :
    (body ++ tail).takeWhile Char.isDigit = whole
      ∧ splitFraction ((body ++ tail).dropWhile Char.isDigit) = (fraction, tail) := by
  have hstop : ∀ c ∈ tail.head?, c.isDigit = false := fun c hc => (htail.head c hc).1
  cases hbody with
  | whole h =>
      rw [Text.takeWhile_append_eq h.isDigit hstop, Text.dropWhile_append_eq h.isDigit hstop]
      refine ⟨rfl, ?_⟩
      unfold splitFraction
      split
      · exact absurd rfl (htail.head '.' rfl).2
      · rfl
  | point h =>
      have hpoint : ∀ c ∈ ('.' :: (fraction ++ tail)).head?, c.isDigit = false := by
        rintro c ⟨⟩
        rfl
      have hwhole (c : Char) (hc : c ∈ whole) : c.isDigit = true :=
        h.isDigit c (List.mem_append_left fraction hc)
      have hfraction (c : Char) (hc : c ∈ fraction) : c.isDigit = true :=
        h.isDigit c (List.mem_append_right whole hc)
      rw [List.append_assoc, List.cons_append, Text.takeWhile_append_eq hwhole hpoint,
        Text.dropWhile_append_eq hwhole hpoint]
      refine ⟨rfl, ?_⟩
      rw [splitFraction, Text.takeWhile_append_eq hfraction hstop,
        Text.dropWhile_append_eq hfraction hstop]

/-- A mantissa has a digit, before the point or behind it. -/
theorem IsMantissa.nonempty (h : IsMantissa body whole fraction) :
    ¬ (whole.isEmpty && fraction.isEmpty) = true := by
  rw [Bool.and_eq_true, List.isEmpty_iff, List.isEmpty_iff]
  rintro ⟨rfl, rfl⟩
  cases h with
  | whole h => exact h.nonempty rfl
  | point h => exact h.nonempty rfl

/-- Exactly the texts with digits, a point if any, and an exponent if any are read. -/
theorem readUnsigned_eq_some_iff {d : Decimal} :
    readUnsigned negative cs = some d ↔ ∃ body whole fraction tail e, cs = body ++ tail
      ∧ IsMantissa body whole fraction ∧ IsExponent tail e
      ∧ d = ⟨negative, Nat.ofDigitChars 10 (whole ++ fraction) 0, e - fraction.length⟩ := by
  constructor
  · intro h
    rw [readUnsigned_eq] at h
    split at h
    · cases h
    · rename_i hdigits
      obtain ⟨body, hcs, hbody⟩ := exists_isMantissa hdigits
      obtain ⟨e, he, hd⟩ := Option.bind_eq_some_iff.mp h
      exact ⟨body, _, _, _, e, hcs, hbody, readExponentPart_eq_some_iff.mp he,
        (Option.some_inj.mp hd).symm⟩
  · rintro ⟨body, whole, fraction, tail, e, rfl, hbody, htail, rfl⟩
    obtain ⟨hwhole, hsplit⟩ := split_mantissa hbody htail
    rw [readUnsigned_eq, hwhole, hsplit, if_neg hbody.nonempty,
      readExponentPart_eq_some_iff.mpr htail, Option.bind_some]

/-! ### Numbers -/

/-- Digits behind a point count as if they stood in front of it, with a lesser exponent. -/
theorem typed_eq (negative : Bool) (whole fraction : List Char) (e : ℤ) :
    typed whole fraction e
      = magnitude ⟨negative, Nat.ofDigitChars 10 (whole ++ fraction) 0, e - fraction.length⟩ := by
  have hpow : (10 : ℚ) ^ e = 10 ^ fraction.length * 10 ^ (e - fraction.length) := by
    rw [← tenPow_add_natCast, sub_add_cancel]
  have happend : Nat.ofDigitChars 10 (whole ++ fraction) 0
      = 10 ^ fraction.length * Nat.ofDigitChars 10 whole 0 + Nat.ofDigitChars 10 fraction 0 :=
    (Nat.ofDigitChars_append 0).trans Nat.ofDigitChars_eq_ofDigitChars_zero
  rw [typed, magnitude, happend, hpow]
  push_cast
  field_simp

/-- Characters in front of the letters have no other case. -/
theorem toLower_of_lt {c : Char} (hc : c.val < 'A'.val) : c.toLower = c :=
  dif_neg fun h => absurd (UInt32.lt_of_lt_of_le hc h.1) (UInt32.lt_irrefl _)

/-- A name begins with a letter. -/
theorem not_lt_of_name {name word : List Char} {letter : Char}
    (hname : name.map Char.toLower = letter :: word) (hletter : ¬ letter.val < 'A'.val) :
    ∃ c rest, name = c :: rest ∧ ¬ c.val < 'A'.val := by
  cases name with
  | nil => cases hname
  | cons c rest =>
      refine ⟨c, rest, rfl, fun hc => ?_⟩
      obtain ⟨rfl, -⟩ := List.cons.inj hname
      exact hletter (by rwa [toLower_of_lt hc])

/-- Digits do not, and a point does not. -/
theorem IsMantissa.head (h : IsMantissa body whole fraction) :
    ∃ c rest, body = c :: rest ∧ c.val < 'A'.val ∧ c ≠ '+' ∧ c ≠ '-' := by
  have hdigit {c : Char} (hc : c.isDigit = true) : c.val < 'A'.val ∧ c ≠ '+' ∧ c ≠ '-' := by
    refine ⟨?_, ne_sign_of_isDigit hc⟩
    rw [Char.isDigit, Bool.and_eq_true, decide_eq_true_iff, decide_eq_true_iff] at hc
    exact UInt32.lt_of_le_of_lt hc.2 (by decide)
  cases h with
  | whole h =>
      obtain ⟨c, rest, rfl⟩ := List.exists_cons_of_ne_nil h.nonempty
      exact ⟨c, rest, rfl, hdigit (h.head rfl)⟩
  | point h =>
      cases whole with
      | nil => exact ⟨'.', fraction, rfl, by decide, by decide, by decide⟩
      | cons c rest => exact ⟨c, _, rfl, hdigit (h.head rfl)⟩

/-- A name begins with a letter, so the sign before it is taken off. -/
theorem takeSign_name {name word : List Char} {letter : Char} (hsign : IsSign sign negative)
    (hname : name.map Char.toLower = letter :: word) (hletter : ¬ letter.val < 'A'.val) :
    takeSign (sign ++ name) = (negative, name) := by
  obtain ⟨c, rest, rfl, hc⟩ := not_lt_of_name hname hletter
  refine takeSign_append hsign ?_
  rintro _ ⟨⟩
  constructor <;> rintro rfl <;> exact hc (by decide)

/-- What begins with a digit, a sign or a point is no name. -/
theorem map_toLower_ne {c : Char} {rest word : List Char} {letter : Char} (hc : c.val < 'A'.val)
    (hletter : ¬ letter.val < 'A'.val) : (c :: rest).map Char.toLower ≠ letter :: word := by
  intro h
  obtain ⟨first, rest', hfirst, hnot⟩ := not_lt_of_name h hletter
  obtain ⟨rfl, -⟩ := List.cons.inj hfirst
  exact hnot hc

/-- What is behind the sign is looked up among the names, and then read as digits. -/
theorem readFloat_eq (hsplit : takeSign cs = (negative, body)) :
    readFloat cs
      = if body.map Char.toLower = "nan".toList then some (0.0 / 0.0)
        else if body.map Char.toLower = "inf".toList
            ∨ body.map Char.toLower = "infinity".toList then
          some (if negative then -(1.0 / 0.0) else 1.0 / 0.0)
        else (readUnsigned negative body).map nearest := by
  rw [readFloat, hsplit]

/-- Exactly the texts that spell a double are read, and they are read as this double. -/
theorem readFloat_eq_some_iff : readFloat cs = some x ↔ Spells cs x := by
  constructor
  · intro h
    cases hsplit : takeSign cs with
    | mk negative body =>
        obtain ⟨sign, hsign, rfl⟩ := exists_isSign hsplit
        rw [readFloat_eq hsplit] at h
        split at h
        · rename_i hname
          cases h
          exact .nan hsign hname
        split at h
        · rename_i hname
          cases h
          exact .infinity hsign hname
        · obtain ⟨d, hd, rfl⟩ := Option.map_eq_some_iff.mp h
          obtain ⟨body, whole, fraction, tail, e, rfl, hbody, htail, rfl⟩ :=
            readUnsigned_eq_some_iff.mp hd
          refine .number hsign hbody htail ?_
          rw [typed_eq negative]
          exact represents_nearestMagnitude _
  · intro h
    cases h with
    | nan hsign hname =>
        rw [readFloat_eq (takeSign_name hsign hname (by decide)), if_pos hname]
    | @infinity sign name negative hsign hname =>
        have hsplit : takeSign (sign ++ name) = (negative, name) := by
          rcases hname with hname | hname <;> exact takeSign_name hsign hname (by decide)
        have hnan : name.map Char.toLower ≠ "nan".toList := by
          rcases hname with hname | hname <;> rw [hname] <;> decide
        rw [readFloat_eq hsplit, if_neg hnan, if_pos hname]
    | @number sign body whole fraction tail negative e magnitude hsign hbody htail hmagnitude =>
        have hread : readUnsigned negative (body ++ tail)
            = some ⟨negative, Nat.ofDigitChars 10 (whole ++ fraction) 0, e - fraction.length⟩ :=
          readUnsigned_eq_some_iff.mpr ⟨body, whole, fraction, tail, e, rfl, hbody, htail, rfl⟩
        rw [typed_eq negative] at hmagnitude
        obtain ⟨c, rest, rfl, hc, hplus, hminus⟩ := hbody.head
        have hsplit : takeSign (sign ++ (c :: rest ++ tail)) = (negative, c :: rest ++ tail) := by
          refine takeSign_append hsign ?_
          rintro _ ⟨⟩
          exact ⟨hplus, hminus⟩
        have hnan : (c :: rest ++ tail).map Char.toLower ≠ "nan".toList :=
          map_toLower_ne hc (by decide)
        have hinfinity : ¬ ((c :: rest ++ tail).map Char.toLower = "inf".toList
            ∨ (c :: rest ++ tail).map Char.toLower = "infinity".toList) :=
          not_or.mpr ⟨map_toLower_ne hc (by decide), map_toLower_ne hc (by decide)⟩
        rw [readFloat_eq hsplit, if_neg hnan, if_neg hinfinity, hread, Option.map_some, nearest,
          hmagnitude.eq (represents_nearestMagnitude _)]

example : readFloat "+.485E2".toList = some 48.5 := by decide +kernel

example : readFloat "-Infinity".toList = some (-(1.0 / 0.0)) := by decide +kernel

example : readFloat "1e".toList = none := by decide +kernel

/-! ### Characters -/

/-- The characters that doubles are spelled with, digits and capitals apart. -/
def marks : List Char :=
  ['+', '-', '.', 'a', 'e', 'f', 'i', 'n', 't', 'y']

/-- The characters that doubles are spelled with. -/
def IsMark (c : Char) : Prop :=
  c.isDigit = true ∨ c.toLower ∈ marks

/-- Signs are marks of numbers. -/
theorem IsSign.isMark (h : IsSign sign negative) : ∀ c ∈ sign, IsMark c := by
  intro c hc
  cases h with
  | none => cases hc
  | plus | minus =>
      rw [List.mem_singleton] at hc
      subst hc
      exact .inr (by decide)

/-- The letters of a name are marks of numbers, in either case. -/
theorem isMark_of_name {name word : List Char} (hname : name.map Char.toLower = word)
    (hword : ∀ c ∈ word, c ∈ marks) : ∀ c ∈ name, IsMark c := by
  intro c hc
  exact .inr (hword _ (hname ▸ List.mem_map_of_mem hc))

/-- Digits and the point are marks of numbers. -/
theorem IsMantissa.isMark (h : IsMantissa body whole fraction) : ∀ c ∈ body, IsMark c := by
  intro c hc
  cases h with
  | whole h => exact .inl (h.isDigit c hc)
  | point h =>
      rcases List.mem_append.mp hc with hc | hc
      · exact .inl (h.isDigit c (List.mem_append_left fraction hc))
      rcases List.mem_cons.mp hc with rfl | hc
      · exact .inr (by decide)
      · exact .inl (h.isDigit c (List.mem_append_right whole hc))

/-- An exponent consists of marks of numbers. -/
theorem IsExponent.isMark (h : IsExponent tail e) : ∀ c ∈ tail, IsMark c := by
  intro c hc
  cases h with
  | none => cases hc
  | some hletter hsign hdigits =>
      rcases List.mem_cons.mp hc with rfl | hc
      · rcases hletter with rfl | rfl <;> exact .inr (by decide)
      rcases List.mem_append.mp hc with hc | hc
      · exact hsign.isMark c hc
      · exact .inl (hdigits.isDigit c hc)

/-- A text that spells a double consists of marks of numbers, and of nothing else. -/
theorem Spells.isMark (h : Spells cs x) : ∀ c ∈ cs, IsMark c := by
  intro c hc
  cases h with
  | nan hsign hname =>
      rcases List.mem_append.mp hc with hc | hc
      · exact hsign.isMark c hc
      · exact isMark_of_name hname (by simp [marks]) c hc
  | infinity hsign hname =>
      rcases List.mem_append.mp hc with hc | hc
      · exact hsign.isMark c hc
      · rcases hname with hname | hname <;> exact isMark_of_name hname (by simp [marks]) c hc
  | number hsign hbody htail _ =>
      rcases List.mem_append.mp hc with hc | hc
      · exact hsign.isMark c hc
      rcases List.mem_append.mp hc with hc | hc
      · exact hbody.isMark c hc
      · exact htail.isMark c hc

/-- The empty text spells nothing. -/
theorem Spells.ne_nil (h : Spells cs x) : cs ≠ [] := by
  rintro rfl
  have hread := readFloat_eq_some_iff.mpr h
  contradiction

end FlightPlan.Decimal
