import FlightPlan.WaypointId

/-!
# `FlightPlan.Proofs.WaypointId`: identifiers read back

The written form of an identifier is one of the four forms that are read. It is
longer than the bare digits, and begins with a digit, which neither the braced form
nor the `urn:uuid:` form does. So it is read as groups of digits, and the digits give
the identifier back (`read_toText`).
-/

set_option autoImplicit false

namespace FlightPlan.WaypointId

/-- Groups are split where they were joined. -/
theorem splitGroups_joinGroups {sizes : List Nat} {cs : List Char}
    (h : cs.length = sizes.foldr (· + ·) 0) :
    splitGroups sizes (joinGroups sizes cs) = some cs := by
  induction sizes generalizing cs with
  | nil =>
      obtain rfl : cs = [] := List.length_eq_zero_iff.mp h
      rfl
  | cons size sizes ih =>
      rw [List.foldr_cons] at h
      cases sizes with
      | nil => simp_all [joinGroups, splitGroups]
      | cons next sizes =>
          -- The first group takes `size` characters, so the hyphen is where it is looked for.
          have htake : (cs.take size).length = size := by
            rw [List.length_take]
            omega
          have hdrop : (cs.take size ++ '-' :: joinGroups (next :: sizes) (cs.drop size)).drop size
              = '-' :: joinGroups (next :: sizes) (cs.drop size) :=
            List.drop_left' htake
          have hlength : (cs.drop size).length = (next :: sizes).foldr (· + ·) 0 := by
            rw [List.length_drop]
            omega
          have hrest := ih hlength
          simp only [joinGroups, splitGroups, hdrop, hrest, List.take_left' htake, Option.map_some,
            List.take_append_drop]

/-- Between groups stand hyphens. -/
theorem length_joinGroups {sizes : List Nat} {cs : List Char}
    (h : cs.length = sizes.foldr (· + ·) 0) :
    (joinGroups sizes cs).length = cs.length + (sizes.length - 1) := by
  induction sizes generalizing cs with
  | nil => rfl
  | cons size sizes ih =>
      rw [List.foldr_cons] at h
      cases sizes with
      | nil => rfl
      | cons next sizes =>
          have hlength : (cs.drop size).length = (next :: sizes).foldr (· + ·) 0 := by
            rw [List.length_drop]
            omega
          have hrest := ih hlength
          simp only [joinGroups, List.length_append, List.length_cons, hrest, List.length_take,
            List.length_drop] at *
          omega

/-- The characters of digits are read back as the digits. -/
theorem ofDigitChars_hexChar (id : WaypointId) :
    ofDigitChars (id.digits.toList.map Text.hexChar) = some id := by
  have hdigits (digits : List (Fin 16)) :
      (digits.map Text.hexChar).mapM Text.hexDigit? = some digits := by
    induction digits with
    | nil => rfl
    | cons d digits ih => rw [List.map_cons, List.mapM_cons, Text.hexDigit?_hexChar, ih]; rfl
  have hsize : id.digits.toList.toArray.size = 32 := by simp
  have hvector : Vector.mk id.digits.toList.toArray hsize = id.digits := by
    simp [← Vector.toList_inj]
  rw [ofDigitChars, hdigits]
  simp [hvector]

/-- No digit is written like the beginning of another form. -/
theorem hexChar_plain :
    ∀ d : Fin 16, Text.hexChar d ≠ '\x7b' ∧ (Text.hexChar d).toLower ≠ 'u' := by
  decide

/-- An identifier is read back from its written form. -/
theorem read_toText (id : WaypointId) : read id.toText.toList = some id := by
  have hlength : (id.digits.toList.map Text.hexChar).length = groupSizes.foldr (· + ·) 0 := by
    simp [groupSizes]
  have hwritten := length_joinGroups hlength
  have hsplit := splitGroups_joinGroups hlength
  have hbare : ¬ (joinGroups groupSizes (id.digits.toList.map Text.hexChar)).length = 32 := by
    rw [hwritten, hlength]
    decide
  -- Only the first character decides that neither of the other two forms is meant.
  obtain ⟨d, rest, hfirst⟩ :
      ∃ d rest, joinGroups groupSizes (id.digits.toList.map Text.hexChar)
        = Text.hexChar d :: rest := by
    cases hdigits : id.digits.toList with
    | nil => simp [hdigits, groupSizes] at hlength
    | cons d digits => exact ⟨d, _, rfl⟩
  obtain ⟨hbrace, hscheme⟩ := hexChar_plain d
  have hunbrace : unbrace (Text.hexChar d :: rest) = none := by
    rw [unbrace]
    intro other h
    exact hbrace (List.cons.inj h).1
  have hunscheme : unscheme (Text.hexChar d :: rest) = none := by
    rw [unscheme, if_neg]
    intro h
    exact hscheme (List.cons.inj h).1
  rw [toText, String.toList_ofList, read, if_neg hbare]
  rw [hfirst] at hsplit ⊢
  rw [hunbrace, hunscheme]
  simp [hsplit, ofDigitChars_hexChar]

/-- The source that gives nothing but zeros. -/
def zeros : FreshIds :=
  fun _ => ⟨Vector.replicate 32 (Text.lastHex 0)⟩

end FlightPlan.WaypointId
