import FlightPlan.Json.Printer
import FlightPlan.Json.Token

/-!
# `FlightPlan.Proofs.Json.Text`: strings between quotation marks

`stringText` writes a string character by character, and `Token.scan` gathers the
characters between two quotation marks before `Token.ofBody` looks at them. The
theorems follow the same two stages:

* `scan_escaped`: no character as it is written ends the string it stands in, so
  the body is gathered whole.
* `unescape_escaped`: the body gives back the numbers of the characters, one
  written character at a time.
* `joinPairs_numbers`: the number of a character is never half of a surrogate
  pair, so the numbers are the characters again.
* `scan_stringText` puts the three together: a written string is one token, the
  string itself, whatever follows it.
-/

set_option autoImplicit false

namespace FlightPlan.Json.Token

/-! ### One written character -/

/-- A control character has two digits in sixteens, and its number is read back from
them. -/
theorem hexQuad?_hexPair {n : Nat} (hn : n < 0x20) :
    hexQuad? '0' '0' (Nat.digitChar (n / 16)) (Nat.digitChar (n % 16)) = some n := by
  revert n
  decide +kernel

/-- The ways in which a character is written: as it is, with a letter behind a backslash,
or, when it is a control character without a letter, by its number. -/
theorem escapedChar_cases (c : Char) :
    (∃ letter, escapedChar c = ['\\', letter] ∧ escaped? letter = some c.toNat
        ∧ letter ≠ 'u' ∧ ¬ letter.toNat < 0x20)
      ∨ (c.toNat < 0x20 ∧ escapedChar c = ['\\', 'u', '0', '0'] ++ hexPair c.toNat)
      ∨ (escapedChar c = [c] ∧ c ≠ '"' ∧ c ≠ '\\' ∧ ¬ c.toNat < 0x20) := by
  have letter {d l : Char} (hd : c = d) (hl : escaped? l = some d.toNat) (hu : l ≠ 'u')
      (hcontrol : ¬ l.toNat < 0x20) (htext : escapedChar d = ['\\', l]) :
      ∃ letter, escapedChar c = ['\\', letter] ∧ escaped? letter = some c.toNat
        ∧ letter ≠ 'u' ∧ ¬ letter.toNat < 0x20 :=
    ⟨l, by rw [hd, htext], by rw [hd, hl], hu, hcontrol⟩
  -- Seven characters have a letter. Of the others the control characters have a number.
  by_cases hquote : c = '"'
  · exact Or.inl (letter hquote (l := '"') (by decide) (by decide) (by decide) rfl)
  by_cases hbackslash : c = '\\'
  · exact Or.inl (letter hbackslash (l := '\\') (by decide) (by decide) (by decide) rfl)
  by_cases hb : c = '\x08'
  · exact Or.inl (letter hb (l := 'b') (by decide) (by decide) (by decide) rfl)
  by_cases ht : c = '\t'
  · exact Or.inl (letter ht (l := 't') (by decide) (by decide) (by decide) rfl)
  by_cases hn : c = '\n'
  · exact Or.inl (letter hn (l := 'n') (by decide) (by decide) (by decide) rfl)
  by_cases hf : c = '\x0c'
  · exact Or.inl (letter hf (l := 'f') (by decide) (by decide) (by decide) rfl)
  by_cases hr : c = '\r'
  · exact Or.inl (letter hr (l := 'r') (by decide) (by decide) (by decide) rfl)
  by_cases hcontrol : c.toNat < 0x20
  · refine Or.inr (Or.inl ⟨hcontrol, ?_⟩)
    simp [escapedChar, hquote, hbackslash, hb, ht, hn, hf, hr, hcontrol]
  · refine Or.inr (Or.inr ⟨?_, hquote, hbackslash, hcontrol⟩)
    simp [escapedChar, hquote, hbackslash, hb, ht, hn, hf, hr, hcontrol]

/-- Digits neither end a string nor begin an escape. -/
theorem hexChar_plain : ∀ d : Fin 16,
    Text.hexChar d ≠ '"' ∧ Text.hexChar d ≠ '\\' ∧ ¬ (Text.hexChar d).toNat < 0x20 := by
  decide

/-- So do the two digits of a control character. -/
theorem hexPair_plain {n : Nat} (hn : n < 0x20) :
    ∀ d ∈ hexPair n, d ≠ '"' ∧ d ≠ '\\' ∧ ¬ d.toNat < 0x20 := by
  have hfirst : n / 16 < 16 := by omega
  have hlast : n % 16 < 16 := by omega
  intro d hd
  rcases List.mem_cons.mp hd with rfl | hd
  · exact hexChar_plain ⟨_, hfirst⟩
  · obtain rfl := List.mem_singleton.mp hd
    exact hexChar_plain ⟨_, hlast⟩

/-! ### The body is gathered whole -/

/-- A plain character of a string is gathered. -/
theorem scan_text_plain {c : Char} (gathered rest : List Char) (hquote : c ≠ '"')
    (hbackslash : c ≠ '\\') (hcontrol : ¬ c.toNat < 0x20) :
    scan (.text gathered false) (c :: rest) = scan (.text (c :: gathered) false) rest := by
  simp [scan, advance, hquote, hbackslash, hcontrol]

/-- Plain characters are gathered one after the other. -/
theorem scan_text_plains {cs : List Char} (gathered rest : List Char)
    (hplain : ∀ c ∈ cs, c ≠ '"' ∧ c ≠ '\\' ∧ ¬ c.toNat < 0x20) :
    scan (.text gathered false) (cs ++ rest)
      = scan (.text (cs.reverse ++ gathered) false) rest := by
  induction cs generalizing gathered with
  | nil => rfl
  | cons c cs ih =>
      obtain ⟨hquote, hbackslash, hcontrol⟩ := hplain c List.mem_cons_self
      rw [List.cons_append, scan_text_plain _ _ hquote hbackslash hcontrol,
        ih _ fun d hd => hplain d (List.mem_cons_of_mem c hd), List.reverse_cons,
        List.append_assoc]
      rfl

/-- A backslash and the letter behind it are gathered, whatever the letter. -/
theorem scan_text_escape {letter : Char} (gathered rest : List Char)
    (hcontrol : ¬ letter.toNat < 0x20) :
    scan (.text gathered false) ('\\' :: letter :: rest)
      = scan (.text (letter :: '\\' :: gathered) false) rest := by
  simp [scan, advance, hcontrol]

/-- A character as it is written stays inside its string. -/
theorem scan_escapedChar (c : Char) (gathered rest : List Char) :
    scan (.text gathered false) (escapedChar c ++ rest)
      = scan (.text ((escapedChar c).reverse ++ gathered) false) rest := by
  rcases escapedChar_cases c with
    ⟨letter, htext, -, -, hcontrol⟩ | ⟨hcontrol, htext⟩ | ⟨htext, hquote, hbackslash, hcontrol⟩
  · rw [htext]
    exact scan_text_escape gathered rest hcontrol
  · rw [htext]
    show scan (.text gathered false) ('\\' :: 'u' :: ('0' :: '0' :: hexPair c.toNat ++ rest)) = _
    have hplain : ∀ d ∈ '0' :: '0' :: hexPair c.toNat, d ≠ '"' ∧ d ≠ '\\' ∧ ¬ d.toNat < 0x20 := by
      intro d hd
      rcases List.mem_cons.mp hd with rfl | hd
      · decide
      rcases List.mem_cons.mp hd with rfl | hd
      · decide
      exact hexPair_plain hcontrol d hd
    rw [scan_text_escape gathered _ (by decide), scan_text_plains _ _ hplain]
    rfl
  · rw [htext]
    exact scan_text_plain gathered rest hquote hbackslash hcontrol

/-- The characters of a string as they are written stay inside it. -/
theorem scan_escaped (cs gathered rest : List Char) :
    scan (.text gathered false) (cs.flatMap escapedChar ++ rest)
      = scan (.text ((cs.flatMap escapedChar).reverse ++ gathered) false) rest := by
  induction cs generalizing gathered with
  | nil => rfl
  | cons c cs ih =>
      rw [List.flatMap_cons, List.append_assoc, scan_escapedChar, ih, List.reverse_append,
        List.append_assoc]

/-! ### The body gives the characters back -/

/-- A written character is read back as its number. -/
theorem unescape_escapedChar (c : Char) (rest : List Char) :
    unescape (escapedChar c ++ rest) = (unescape rest).map (c.toNat :: ·) := by
  rcases escapedChar_cases c with
    ⟨letter, htext, hletter, hu, -⟩ | ⟨hcontrol, htext⟩ | ⟨htext, -, hbackslash, -⟩
  · rw [htext]
    show unescape ('\\' :: letter :: rest) = _
    -- The equation for a letter behind a backslash leaves out `u`, which begins a number.
    rw [unescape.eq_3 letter rest (by
      intro a b d e tail h _
      exact hu h), hletter]
    cases unescape rest <;> rfl
  · rw [htext]
    show unescape ('\\' :: 'u' :: '0' :: '0' :: Nat.digitChar (c.toNat / 16)
      :: Nat.digitChar (c.toNat % 16) :: rest) = _
    rw [unescape, hexQuad?_hexPair hcontrol]
    cases unescape rest <;> rfl
  · rw [htext]
    show unescape (c :: rest) = _
    rw [unescape.eq_5 c rest]
    all_goals simp_all

/-- The body of a written string is read back as the numbers of its characters. -/
theorem unescape_escaped (cs : List Char) :
    unescape (cs.flatMap escapedChar) = some (cs.map Char.toNat) := by
  induction cs with
  | nil => rfl
  | cons c cs ih =>
      rw [List.flatMap_cons, unescape_escapedChar, ih]
      rfl

/-- No character is half of a surrogate pair. -/
theorem not_surrogate (c : Char) :
    isHighSurrogate c.toNat = false ∧ isLowSurrogate c.toNat = false := by
  have hvalid : c.toNat < 0xD800 ∨ (0xDFFF < c.toNat ∧ c.toNat < 0x110000) := c.valid
  constructor
  · simp only [isHighSurrogate, Bool.and_eq_false_iff, decide_eq_false_iff_not]
    omega
  · simp only [isLowSurrogate, Bool.and_eq_false_iff, decide_eq_false_iff_not]
    omega

/-- Numbers of characters are joined to the characters themselves. -/
theorem joinPairs_numbers (cs : List Char) : joinPairs (cs.map Char.toNat) = some cs := by
  induction cs with
  | nil => rfl
  | cons c cs ih =>
      obtain ⟨hhigh, hlow⟩ := not_surrogate c
      -- The joining looks at two numbers at a time, so the last one is a case of its own.
      cases cs with
      | nil => simp [joinPairs, hhigh, hlow, Char.ofNat_toNat]
      | cons d ds =>
          rw [List.map_cons, List.map_cons, joinPairs]
          rw [List.map_cons] at ih
          simp [hhigh, hlow, ih, Char.ofNat_toNat]

/-- What stands between the quotation marks of a written string is the string. -/
theorem ofBody_escaped (s : String) : ofBody (s.toList.flatMap escapedChar) = .text (some s) := by
  rw [ofBody, unescape_escaped]
  simp only [joinPairs_numbers, Option.map_some, String.ofList_toList]

/-- A written string is one token. -/
theorem scan_stringText (s : String) (rest : List Char) :
    scan .between (stringText s ++ rest) = .text (some s) :: scan .between rest := by
  have hopen : scan .between (stringText s ++ rest)
      = scan (.text [] false) (s.toList.flatMap escapedChar ++ '"' :: rest) := by
    simp [stringText, scan, advance, start, isBlank]
  have hclose (gathered : List Char) :
      scan (.text gathered false) ('"' :: rest)
        = ofBody gathered.reverse :: scan .between rest := by
    simp [scan, advance]
  rw [hopen, scan_escaped, hclose, List.append_nil, List.reverse_reverse, ofBody_escaped]

end FlightPlan.Json.Token
