import FlightPlan.Text.Blank

/-!
# `FlightPlan.Proofs.Text.Blank`: texts cut where a property ends

A text is cut in front of the first character without some property (`takeWhile_append_eq`,
`dropWhile_append_eq`). Trimming cuts it twice, and so it takes off all blanks around what does not
begin or end with one (`trim_append`), and nothing else (`exists_trim_eq`).
-/

set_option autoImplicit false

namespace FlightPlan.Text

section
variable {α : Type} {p : α → Bool} {front back : List α}

/-- A front of which all passes is taken, up to a back whose head does not. -/
theorem takeWhile_append_eq (hfront : ∀ a ∈ front, p a = true)
    (hback : ∀ a ∈ back.head?, p a = false) : (front ++ back).takeWhile p = front := by
  rw [List.takeWhile_append_of_pos hfront]
  cases back with
  | nil => exact List.append_nil front
  | cons a back =>
      have ha : ¬ p a = true := Bool.eq_false_iff.mp (hback a rfl)
      rw [List.takeWhile_cons_of_neg ha, List.append_nil]

/-- A front of which all passes is dropped, and a back whose head does not is left. -/
theorem dropWhile_append_eq (hfront : ∀ a ∈ front, p a = true)
    (hback : ∀ a ∈ back.head?, p a = false) : (front ++ back).dropWhile p = back := by
  rw [List.dropWhile_append_of_pos hfront]
  cases back with
  | nil => rfl
  | cons a back =>
      have ha : ¬ p a = true := Bool.eq_false_iff.mp (hback a rfl)
      rw [List.dropWhile_cons_of_neg ha]

/-- What is taken passes. -/
theorem of_mem_takeWhile {cs : List α} {a : α} (ha : a ∈ cs.takeWhile p) : p a = true :=
  List.all_eq_true.mp List.all_takeWhile a ha

end

/-- There is nothing but blanks. -/
def IsBlanks (cs : List Char) : Prop :=
  ∀ c ∈ cs, isBlank c = true

variable {before text behind : List Char}

/-- All blanks around a text are taken off, if it does not begin or end with one itself. -/
theorem trim_append (hbefore : IsBlanks before) (hbehind : IsBlanks behind) (hne : text ≠ [])
    (htext : ∀ c ∈ text, isBlank c = false) : trim (before ++ text ++ behind) = text := by
  have hfront : (before ++ (text ++ behind)).dropWhile isBlank = text ++ behind := by
    refine dropWhile_append_eq hbefore fun c hc => htext c ?_
    obtain ⟨first, rest, rfl⟩ := List.exists_cons_of_ne_nil hne
    exact List.mem_of_mem_head? hc
  have hback : (behind.reverse ++ text.reverse).dropWhile isBlank = text.reverse :=
    dropWhile_append_eq (fun c hc => hbehind c (List.mem_reverse.mp hc))
      fun c hc => htext c (List.mem_reverse.mp (List.mem_of_mem_head? hc))
  rw [trim, List.append_assoc, hfront, List.reverse_append, hback, List.reverse_reverse]

/-- Nothing but blanks is taken off. -/
theorem exists_trim_eq (cs : List Char) :
    ∃ before behind, IsBlanks before ∧ IsBlanks behind ∧ cs = before ++ trim cs ++ behind := by
  refine ⟨cs.takeWhile isBlank, ((cs.dropWhile isBlank).reverse.takeWhile isBlank).reverse,
    fun c hc => of_mem_takeWhile hc,
    fun c hc => of_mem_takeWhile (List.mem_reverse.mp hc), ?_⟩
  rw [trim, List.append_assoc, ← List.reverse_append, List.takeWhile_append_dropWhile,
    List.reverse_reverse, List.takeWhile_append_dropWhile]

end FlightPlan.Text
