import FlightPlan.PositionText
import FlightPlan.Proofs.Decimal.Layout
import FlightPlan.Proofs.Settings

/-!
# `FlightPlan.Proofs.PositionText`: which texts are positions

A coordinate is typed as a number with blanks around it (`IsTyped`). Blanks are no part of a
number, so there is one way to take them off. A comma is no part of either, so the first comma of
a typed position stands behind the latitude.

`Position.Outcome` says for every text what becomes of it: the position it stands for, or the
fault it is refused with. `readTyped_eq_iff` shows that the reader does as it says. A position in
range is finite (`Position.isValid_iff_range`), so what is no number and what is infinite are
refused along with the numbers out of range, although they are numbers to the reader.

The way back uses nothing about printing but what is proved of it: a finite double in a message
spells itself (`Decimal.spells_number`).
-/

set_option autoImplicit false

namespace FlightPlan

open Decimal (Spells IsMark marks)
open Text (IsBlanks isBlank)

variable {cs latText lonText : List Char} {p : Position Float} {x y : Float}

/-! ### Coordinates -/

/-- The text spells a double, and there may be blanks around it. -/
inductive IsTyped : List Char → Float → Prop
  | intro {before text behind : List Char} {x : Float} (hbefore : IsBlanks before)
      (h : Spells text x) (hbehind : IsBlanks behind) : IsTyped (before ++ text ++ behind) x

/-- No blank is in a number. -/
theorem not_isMark_of_isBlank {c : Char} (hblank : isBlank c = true) : ¬ IsMark c := by
  have hcode := hblank
  simp only [isBlank, Bool.or_eq_true, Bool.and_eq_true, decide_eq_true_eq, beq_iff_eq] at hcode
  rintro (hdigit | hmark)
  · simp only [Char.isDigit, Bool.and_eq_true, decide_eq_true_eq, UInt32.le_iff_toNat_le] at hdigit
    have hlow : 48 ≤ c.toNat := hdigit.1
    have hhigh : c.toNat ≤ 57 := hdigit.2
    omega
  · have hlower : c.toLower = c := by
      refine dif_neg fun hletter => ?_
      have hlow : 65 ≤ c.toNat := UInt32.le_iff_toNat_le.mp hletter.1
      have hhigh : c.toNat ≤ 90 := UInt32.le_iff_toNat_le.mp hletter.2
      omega
    have hmarks : ∀ mark ∈ marks, isBlank mark = false := by simp [marks, isBlank]
    rw [hlower] at hmark
    exact absurd hblank (Bool.eq_false_iff.mp (hmarks c hmark))

/-- No comma is in a number. -/
theorem not_isMark_comma : ¬ IsMark ',' := by
  rintro (h | h)
  · contradiction
  · exact absurd h (by decide)

/-- A comma is not a blank either. -/
theorem comma_notMem_of_isBlanks (h : IsBlanks cs) : ',' ∉ cs :=
  fun hc => absurd (h ',' hc) (by decide)

/-- So a typed coordinate has no comma, and the first comma of a text ends its latitude. -/
theorem IsTyped.comma_notMem (h : IsTyped cs x) : ',' ∉ cs := by
  obtain ⟨hbefore, hspells, hbehind⟩ := h
  rw [List.mem_append, List.mem_append]
  rintro ((hc | hc) | hc)
  · exact comma_notMem_of_isBlanks hbefore hc
  · exact not_isMark_comma (hspells.isMark _ hc)
  · exact comma_notMem_of_isBlanks hbehind hc

/-- Reading a coordinate gives the number that is typed. -/
theorem readCoordinate_eq_some_iff : Position.readCoordinate cs = some x ↔ IsTyped cs x := by
  rw [Position.readCoordinate, Decimal.readFloat_eq_some_iff]
  constructor
  · intro h
    obtain ⟨before, behind, hbefore, hbehind, hcs⟩ := Text.exists_trim_eq cs
    rw [hcs]
    exact .intro hbefore h hbehind
  · rintro ⟨hbefore, hspells, hbehind⟩
    rwa [Text.trim_append hbefore hbehind hspells.ne_nil]
    intro c hc
    exact Bool.eq_false_iff.mpr fun hblank => not_isMark_of_isBlank hblank (hspells.isMark c hc)

/-- What is refused as a coordinate has no number typed in it. -/
theorem readCoordinate_eq_none_iff :
    Position.readCoordinate cs = none ↔ ∀ x, ¬ IsTyped cs x := by
  simp only [← readCoordinate_eq_some_iff, Option.eq_none_iff_forall_ne_some, ne_eq]

namespace Position

/-! ### Positions -/

/-- What becomes of a typed text. -/
inductive Outcome : List Char → Except PositionFault (Position Float) → Prop
  | noComma {cs : List Char} (h : ',' ∉ cs) : Outcome cs (.error (.noComma cs))
  | badLatitude {latText lonText : List Char} (hcomma : ',' ∉ latText)
      (hlat : ∀ x, ¬ IsTyped latText x) :
      Outcome (latText ++ ',' :: lonText) (.error (.badLatitude latText))
  | badLongitude {latText lonText : List Char} {x : Float} (hlat : IsTyped latText x)
      (hlon : ∀ y, ¬ IsTyped lonText y) :
      Outcome (latText ++ ',' :: lonText) (.error (.badLongitude lonText))
  | outOfRange {latText lonText : List Char} {p : Position Float} (hlat : IsTyped latText p.lat)
      (hlon : IsTyped lonText p.lon) (hrange : p.isValid = false) :
      Outcome (latText ++ ',' :: lonText) (.error (.outOfRange p))
  | position {latText lonText : List Char} {p : Position Float} (hlat : IsTyped latText p.lat)
      (hlon : IsTyped lonText p.lon) (hvalid : p.isValid = true) :
      Outcome (latText ++ ',' :: lonText) (.ok p)

/-- A text without a comma is refused as a whole. -/
theorem readTyped_of_noComma (h : ',' ∉ cs) : readTyped cs = .error (.noComma cs) := by
  have hdrop : cs.dropWhile (· != ',') = [] :=
    List.dropWhile_eq_nil_iff.mpr fun c hc => bne_iff_ne.mpr fun heq => h (heq ▸ hc)
  rw [readTyped, hdrop]

section
variable (h : ',' ∉ latText)
include h

/-- A text is cut at its first comma. -/
theorem takeWhile_append_comma (lonText : List Char) :
    (latText ++ ',' :: lonText).takeWhile (· != ',') = latText
      ∧ (latText ++ ',' :: lonText).dropWhile (· != ',') = ',' :: lonText := by
  have hfront : ∀ c ∈ latText, (c != ',') = true :=
    fun c hc => bne_iff_ne.mpr fun heq => h (heq ▸ hc)
  have hback : ∀ c ∈ (',' :: lonText).head?, (c != ',') = false := by
    rintro c ⟨⟩
    rfl
  exact ⟨Text.takeWhile_append_eq hfront hback, Text.dropWhile_append_eq hfront hback⟩

/-- What stands before the comma is refused if it is no number, whatever follows. -/
theorem readTyped_of_badLatitude (hlat : readCoordinate latText = none) :
    readTyped (latText ++ ',' :: lonText) = .error (.badLatitude latText) := by
  obtain ⟨htake, hdrop⟩ := takeWhile_append_comma h lonText
  simp only [readTyped, htake, hdrop, hlat]

/-- After a latitude, what stands behind the comma is refused if it is no number. -/
theorem readTyped_of_badLongitude (hlat : readCoordinate latText = some x)
    (hlon : readCoordinate lonText = none) :
    readTyped (latText ++ ',' :: lonText) = .error (.badLongitude lonText) := by
  obtain ⟨htake, hdrop⟩ := takeWhile_append_comma h lonText
  simp only [readTyped, htake, hdrop, hlat, hlon]

/-- Two numbers are a position if they are in range. -/
theorem readTyped_of_numbers (hlat : readCoordinate latText = some x)
    (hlon : readCoordinate lonText = some y) :
    readTyped (latText ++ ',' :: lonText)
      = if isValid ⟨x, y⟩ then .ok ⟨x, y⟩ else .error (.outOfRange ⟨x, y⟩) := by
  obtain ⟨htake, hdrop⟩ := takeWhile_append_comma h lonText
  simp only [readTyped, htake, hdrop, hlat, hlon]

end

/-- Every text has its outcome, by where the first comma is and what is typed on either side. -/
theorem outcome_readTyped (cs : List Char) : Outcome cs (readTyped cs) := by
  by_cases h : ',' ∈ cs
  · obtain ⟨latText, lonText, rfl, hcomma⟩ := List.eq_append_cons_of_mem h
    cases hlat : readCoordinate latText with
    | none =>
        rw [readTyped_of_badLatitude hcomma hlat]
        exact .badLatitude hcomma (readCoordinate_eq_none_iff.mp hlat)
    | some lat =>
        have hlat' := readCoordinate_eq_some_iff.mp hlat
        cases hlon : readCoordinate lonText with
        | none =>
            rw [readTyped_of_badLongitude hcomma hlat hlon]
            exact .badLongitude hlat' (readCoordinate_eq_none_iff.mp hlon)
        | some lon =>
            have hlon' := readCoordinate_eq_some_iff.mp hlon
            rw [readTyped_of_numbers hcomma hlat hlon]
            split
            · rename_i hvalid
              exact .position hlat' hlon' hvalid
            · rename_i hinvalid
              exact .outOfRange hlat' hlon' (Bool.eq_false_iff.mpr hinvalid)
  · rw [readTyped_of_noComma h]
    exact .noComma h

/-- The reader does with every text what is said of it. -/
theorem readTyped_eq_iff {r : Except PositionFault (Position Float)} :
    readTyped cs = r ↔ Outcome cs r := by
  constructor
  · rintro rfl
    exact outcome_readTyped cs
  · intro h
    cases h with
    | noComma h => exact readTyped_of_noComma h
    | badLatitude hcomma hlat =>
        exact readTyped_of_badLatitude hcomma (readCoordinate_eq_none_iff.mpr hlat)
    | badLongitude hlat hlon =>
        exact readTyped_of_badLongitude hlat.comma_notMem (readCoordinate_eq_some_iff.mpr hlat)
          (readCoordinate_eq_none_iff.mpr hlon)
    | outOfRange hlat hlon hrange =>
        rw [readTyped_of_numbers hlat.comma_notMem (readCoordinate_eq_some_iff.mpr hlat)
          (readCoordinate_eq_some_iff.mpr hlon)]
        exact if_neg (Bool.eq_false_iff.mp hrange)
    | position hlat hlon hvalid =>
        rw [readTyped_of_numbers hlat.comma_notMem (readCoordinate_eq_some_iff.mpr hlat)
          (readCoordinate_eq_some_iff.mpr hlon)]
        exact if_pos hvalid

/-- What lies in range is finite. -/
theorem isValid_iff_range :
    p.isValid = true ↔
      (-90.0 ≤ p.lat ∧ p.lat ≤ 90.0) ∧ (-180.0 ≤ p.lon ∧ p.lon ≤ 180.0) := by
  rw [isValid_iff, and_iff_right_iff_imp]
  rintro ⟨⟨hsouth, hnorth⟩, hwest, heast⟩
  have hlat : Binary64.Bounded (-46) p.lat :=
    Binary64.bounded_of_between (by decide) (by decide) hsouth hnorth
  have hlon : Binary64.Bounded (-45) p.lon :=
    Binary64.bounded_of_between (by decide) (by decide) hwest heast
  exact (Bool.and_eq_true ..).mpr ⟨hlat.isFinite (by decide), hlon.isFinite (by decide)⟩

/-- A text is read as a position when two numbers in range are typed with a comma between them. -/
theorem readTyped_eq_ok_iff :
    readTyped cs = .ok p ↔ ∃ latText lonText, cs = latText ++ ',' :: lonText
      ∧ IsTyped latText p.lat ∧ IsTyped lonText p.lon ∧ p.isValid = true := by
  rw [readTyped_eq_iff]
  constructor
  · intro h
    cases h with
    | position hlat hlon hvalid => exact ⟨_, _, rfl, hlat, hlon, hvalid⟩
  · rintro ⟨latText, lonText, rfl, hlat, hlon, hvalid⟩
    exact .position hlat hlon hvalid

end Position

/-- A text is a position exactly when there is a number in front of its first comma and a number
behind it, either with blanks around it, and the two are in range. It stands for these numbers, and
so for a finite position. A valid position is read back from its two numbers as messages print
them, with any blanks around them. -/
theorem typed_positions_read_back :
    (∀ (cs : List Char) (p : Position Float), Position.readTyped cs = .ok p ↔
      ∃ latText lonText, cs = latText ++ ',' :: lonText ∧ ',' ∉ latText
        ∧ IsTyped latText p.lat ∧ IsTyped lonText p.lon
        ∧ (-90.0 ≤ p.lat ∧ p.lat ≤ 90.0) ∧ (-180.0 ≤ p.lon ∧ p.lon ≤ 180.0)) ∧
    (∀ (cs : List Char) (p : Position Float), Position.readTyped cs = .ok p →
      p.isFinite = true ∧ p.isValid = true) ∧
    ∀ p : Position Float, p.isValid = true → ∀ a b c d : List Char,
      IsBlanks a → IsBlanks b → IsBlanks c → IsBlanks d →
      Position.readTyped ((a ++ (Message.number p.lat).toList ++ b)
        ++ ',' :: (c ++ (Message.number p.lon).toList ++ d)) = .ok p := by
  refine ⟨?_, ?_, ?_⟩
  · intro cs p
    rw [Position.readTyped_eq_ok_iff]
    constructor
    · rintro ⟨latText, lonText, hcs, hlat, hlon, hvalid⟩
      exact ⟨latText, lonText, hcs, hlat.comma_notMem, hlat, hlon,
        Position.isValid_iff_range.mp hvalid⟩
    · rintro ⟨latText, lonText, hcs, -, hlat, hlon, hrange⟩
      exact ⟨latText, lonText, hcs, hlat, hlon, Position.isValid_iff_range.mpr hrange⟩
  · intro cs p h
    obtain ⟨-, -, -, -, -, hvalid⟩ := Position.readTyped_eq_ok_iff.mp h
    exact ⟨(Position.isValid_iff.mp hvalid).1, hvalid⟩
  · intro p hvalid a b c d ha hb hc hd
    obtain ⟨hlat, hlon⟩ : p.lat.isFinite = true ∧ p.lon.isFinite = true :=
      (Bool.and_eq_true ..).mp (Position.isValid_iff.mp hvalid).1
    exact Position.readTyped_eq_ok_iff.mpr ⟨_, _, rfl, .intro ha (Decimal.spells_number hlat) hb,
      .intro hc (Decimal.spells_number hlon) hd, hvalid⟩

/-- A negative zero and the least double, which has more than three hundred zeros, are read back
with blanks of several kinds around them. -/
theorem typed_positions_read_back_least :
    let p : Position Float := ⟨-0.0, 5e-324⟩
    let text := ([' ', '\t'] ++ (Message.number p.lat).toList ++ [])
      ++ ',' :: (['\u3000'] ++ (Message.number p.lon).toList ++ ['\n'])
    p.isValid = true
      ∧ IsBlanks [' ', '\t'] ∧ IsBlanks [] ∧ IsBlanks ['\u3000'] ∧ IsBlanks ['\n']
      ∧ Position.readTyped text = .ok p ∧ p.isFinite = true
      ∧ ∃ latText lonText, text = latText ++ ',' :: lonText ∧ ',' ∉ latText
        ∧ IsTyped latText (-0.0) ∧ IsTyped lonText 5e-324 := by
  intro p text
  obtain ⟨hexact, hfinite, hback⟩ := typed_positions_read_back
  have hvalid : p.isValid = true := by decide +kernel
  have hbefore : IsBlanks [' ', '\t'] := by simp [IsBlanks, isBlank]
  have hnone : IsBlanks [] := List.forall_mem_nil _
  have hwide : IsBlanks ['\u3000'] := by simp [IsBlanks, isBlank]
  have hbehind : IsBlanks ['\n'] := by simp [IsBlanks, isBlank]
  have hread := hback p hvalid _ _ _ _ hbefore hnone hwide hbehind
  obtain ⟨latText, lonText, htext, hcomma, hlat, hlon, -⟩ := (hexact _ p).mp hread
  exact ⟨hvalid, hbefore, hnone, hwide, hbehind, hread, (hfinite _ p hread).1, latText, lonText,
    htext, hcomma, hlat, hlon⟩

end FlightPlan
