import FlightPlan.Proofs.Json.Number
import FlightPlan.Proofs.Json.Text

/-!
# `FlightPlan.Proofs.Json.RoundTrip`: what is written is read back

Between a value and its text stand the tokens. `tokens` lists those of a value, and
the proof has a half on either side of them:

* `Writable.scan_textAt`: the scanner finds in a written value the tokens of the
  value. Line breaks and indentation leave no token, so both styles have the same.
* `Writable.run_tokens`: the reader, at a place where a value is expected, takes up
  the tokens of the value and puts the value where it belongs.

Both are inductions on what may be written (`Writable`): every value whose numbers
read back, and which is representable throughout. `Writable.read_text` is the round
trip for a whole text.
-/

set_option autoImplicit false

namespace FlightPlan.Json

open Token (scan isBlank isRunChar ofRun ofPunctuation)

/-- What is read back from its text. The reader has a say about numbers alone. -/
inductive Writable : Json → Prop where
  | null : Writable .null
  | bool (b : Bool) : Writable (.bool b)
  | number {n : Number} (h : ofRun (numberText n) = .leaf (.number n)) : Writable (.number n)
  | string (s : String) : Writable (.string s)
  | array {items : List Json} (h : ∀ item ∈ items, Writable item) : Writable (.array items)
  | object {members : List (String × Json)} (h : ∀ member ∈ members, Writable member.2) :
    Writable (.object members)

/-! ### The tokens of a value -/

mutual

/-- The tokens of a value. -/
def tokens : Json → List Token
  | .null => [.leaf .null]
  | .bool b => [.leaf (.bool b)]
  | .number n => [.leaf (.number n)]
  | .string s => [.text (some s)]
  | .array [] => [.openArray, .closeArray]
  | .array (item :: rest) => .openArray :: tokens item ++ itemsTokens rest ++ [.closeArray]
  | .object [] => [.openObject, .closeObject]
  | .object ((key, value) :: rest) =>
    .openObject :: .text (some key) :: .colon :: tokens value ++ membersTokens rest
      ++ [.closeObject]
  | .unrepresentable => [.leaf .null]

/-- The tokens of the items after the first. -/
def itemsTokens : List Json → List Token
  | [] => []
  | item :: rest => .comma :: tokens item ++ itemsTokens rest

/-- The tokens of the members after the first. -/
def membersTokens : List (String × Json) → List Token
  | [] => []
  | (key, value) :: rest =>
    .comma :: .text (some key) :: .colon :: tokens value ++ membersTokens rest

end

/-! ### Scanning a written value -/

namespace Token

/-- Blanks between tokens leave nothing. -/
theorem scan_blanks {blanks : List Char} (h : ∀ c ∈ blanks, isBlank c = true) (rest : List Char) :
    scan .between (blanks ++ rest) = scan .between rest := by
  induction blanks with
  | nil => rfl
  | cons c blanks ih =>
      have hstart : start c = ([], .between) := by simp [start, h c List.mem_cons_self]
      have hstep : scan .between (c :: (blanks ++ rest)) = scan .between (blanks ++ rest) := by
        simp [scan, advance, hstart]
      rw [List.cons_append, hstep, ih fun d hd => h d (List.mem_cons_of_mem c hd)]

end Token

/-- A line break is blank. -/
theorem scan_lineBreak (style : Style) (depth : Nat) (rest : List Char) :
    scan .between (style.lineBreak depth ++ rest) = scan .between rest := by
  refine Token.scan_blanks ?_ rest
  intro c hc
  cases style with
  | compact => exact nomatch hc
  | pretty =>
      rcases List.mem_cons.mp hc with rfl | hc
      · decide
      · rw [List.eq_of_mem_replicate hc]
        decide

/-- Between a key and its value stands a colon, and perhaps a blank. -/
theorem scan_afterKey (style : Style) (rest : List Char) :
    scan .between (style.afterKey ++ rest) = .colon :: scan .between rest := by
  cases style <;> rfl

/-- A comma is a token. -/
theorem scan_comma (rest : List Char) :
    scan .between (',' :: rest) = .comma :: scan .between rest := rfl

/-- A line break and what closes an array or object end a run. -/
theorem endsRun_close (style : Style) (depth : Nat) {c : Char} (hc : isRunChar c = false)
    (rest : List Char) : EndsRun (style.lineBreak depth ++ c :: rest) := by
  cases style with
  | compact => exact endsRun_cons hc rest
  | pretty => exact endsRun_cons (by decide) _

/-- The scanner finds the tokens of the value in every place where the value is written. -/
def Scans (j : Json) : Prop :=
  ∀ (style : Style) (depth : Nat) (rest : List Char), EndsRun rest →
    scan .between (textAt style depth j ++ rest) = tokens j ++ scan .between rest

/-- Items are scanned one by one, each behind a comma. -/
theorem scan_itemsText {items : List Json} (hitems : ∀ item ∈ items, Scans item) (style : Style)
    (depth : Nat) {rest : List Char} (hrest : EndsRun rest) :
    EndsRun (itemsText style depth items ++ rest)
      ∧ scan .between (itemsText style depth items ++ rest)
        = itemsTokens items ++ scan .between rest := by
  -- An item may be a number, whose end the scanner sees only in what follows. So the induction
  -- also carries that the items left over end a run.
  induction items with
  | nil => exact ⟨hrest, rfl⟩
  | cons item items ih =>
      rw [List.forall_mem_cons] at hitems
      obtain ⟨hnext, hscan⟩ := ih hitems.2
      refine ⟨endsRun_cons (by decide) _, ?_⟩
      simp only [itemsText, itemsTokens, List.cons_append, List.append_assoc]
      rw [scan_comma, scan_lineBreak, hitems.1 style depth _ hnext, hscan]

/-- Members are scanned one by one, each behind a comma. -/
theorem scan_membersText {members : List (String × Json)}
    (hmembers : ∀ member ∈ members, Scans member.2) (style : Style) (depth : Nat)
    {rest : List Char} (hrest : EndsRun rest) :
    EndsRun (membersText style depth members ++ rest)
      ∧ scan .between (membersText style depth members ++ rest)
        = membersTokens members ++ scan .between rest := by
  induction members with
  | nil => exact ⟨hrest, rfl⟩
  | cons member members ih =>
      obtain ⟨key, value⟩ := member
      rw [List.forall_mem_cons] at hmembers
      obtain ⟨hnext, hscan⟩ := ih hmembers.2
      have hvalue : Scans value := hmembers.1
      refine ⟨endsRun_cons (by decide) _, ?_⟩
      simp only [membersText, membersTokens, List.cons_append, List.append_assoc]
      rw [scan_comma, scan_lineBreak, Token.scan_stringText, scan_afterKey,
        hvalue style depth _ hnext, hscan]

/-- The tokens of an array are found if those of its items are. -/
theorem scan_array {item : Json} {items : List Json} (hitem : Scans item)
    (hitems : ∀ other ∈ items, Scans other) : Scans (.array (item :: items)) := by
  intro style depth rest hrest
  have hopen (tail : List Char) :
      scan .between ('[' :: tail) = .openArray :: scan .between tail := rfl
  have hend (tail : List Char) :
      scan .between (']' :: tail) = .closeArray :: scan .between tail := rfl
  -- Each part needs an end of run behind it, so they are put together from the last to the first.
  have hclose := endsRun_close style depth (c := ']') (by decide) rest
  obtain ⟨hnext, hothers⟩ := scan_itemsText hitems style (depth + 1) hclose
  have hfirst := hitem style (depth + 1) _ hnext
  simp only [textAt, tokens, List.cons_append, List.append_assoc, List.nil_append]
  rw [hopen, scan_lineBreak, hfirst, hothers, scan_lineBreak, hend]

/-- The tokens of an object are found if those of its values are. -/
theorem scan_object {key : String} {value : Json} {members : List (String × Json)}
    (hvalue : Scans value) (hmembers : ∀ other ∈ members, Scans other.2) :
    Scans (.object ((key, value) :: members)) := by
  intro style depth rest hrest
  have hopen (tail : List Char) :
      scan .between ('\x7b' :: tail) = .openObject :: scan .between tail := rfl
  have hend (tail : List Char) :
      scan .between ('\x7d' :: tail) = .closeObject :: scan .between tail := rfl
  have hclose := endsRun_close style depth (c := '\x7d') (by decide) rest
  obtain ⟨hnext, hothers⟩ := scan_membersText hmembers style (depth + 1) hclose
  have hfirst := hvalue style (depth + 1) _ hnext
  simp only [textAt, tokens, List.cons_append, List.append_assoc, List.nil_append]
  rw [hopen, scan_lineBreak, Token.scan_stringText, scan_afterKey, hfirst, hothers,
    scan_lineBreak, hend]

/-- In a written value stand its tokens, whatever the style and the depth. -/
theorem Writable.scan_textAt {j : Json} (h : Writable j) : Scans j := by
  induction h with
  | null =>
      intro style depth rest hrest
      have hnull : IsRun "null".toList := ⟨nofun, List.all_eq_true.mp rfl⟩
      exact Token.scan_run hnull hrest
  | bool b =>
      intro style depth rest hrest
      have htrue : IsRun "true".toList := ⟨nofun, List.all_eq_true.mp rfl⟩
      have hfalse : IsRun "false".toList := ⟨nofun, List.all_eq_true.mp rfl⟩
      cases b with
      | false => exact Token.scan_run hfalse hrest
      | true => exact Token.scan_run htrue hrest
  | @number n h =>
      intro style depth rest hrest
      show scan .between (numberText n ++ rest) = _
      rw [Token.scan_run (numberText_isRun n) hrest, h]
      rfl
  | string s =>
      intro style depth rest hrest
      exact Token.scan_stringText s rest
  | @array items _ ih =>
      cases items with
      | nil => exact fun _ _ _ _ => rfl
      | cons item items =>
          rw [List.forall_mem_cons] at ih
          exact scan_array ih.1 ih.2
  | @object members _ ih =>
      cases members with
      | nil => exact fun _ _ _ _ => rfl
      | cons member members =>
          rw [List.forall_mem_cons] at ih
          exact scan_object ih.1 ih.2

/-! ### Reading the tokens of a value -/

/-- How reading goes on after a step. -/
def resume (rest : List Token) : Option Step → Option (Json × List Token)
  | none => none
  | some (.done value) => some (value, rest)
  | some (.more reading) => reading.run rest

/-- Reading takes one step for each token. -/
theorem Reading.run_cons (r : Reading) (token : Token) (rest : List Token) :
    r.run (token :: rest) = resume rest (r.step token) := by
  rw [Reading.run]
  cases r.step token with
  | none => rfl
  | some step => cases step <;> rfl

/-- A value whose tokens are taken up wherever a value is expected. -/
def Completes (j : Json) : Prop :=
  ∀ (stack : List Frame) (rest : List Token),
    Reading.run ⟨.value, stack⟩ (tokens j ++ rest) = resume rest (complete j stack)

/-- No value begins with the end of an array, so the first item may be any value. -/
theorem run_firstItem (j : Json) (stack : List Frame) (rest : List Token) :
    Reading.run ⟨.firstItem, stack⟩ (tokens j ++ rest)
      = Reading.run ⟨.value, stack⟩ (tokens j ++ rest) := by
  cases j with
  | array items => cases items <;> rfl
  | object members => cases members <;> rfl
  | _ => rfl

/-- Items and the end of their array complete the array. -/
theorem run_itemsTokens {items : List Json} (hitems : ∀ item ∈ items, Completes item)
    (seen : List Json) (stack : List Frame) (rest : List Token) :
    Reading.run ⟨.separator, .array seen :: stack⟩ (itemsTokens items ++ .closeArray :: rest)
      = resume rest (complete (.array (seen.reverse ++ items)) stack) := by
  -- The frame on the stack holds the items `seen` so far, the last one first.
  induction items generalizing seen with
  | nil =>
      rw [List.append_nil]
      exact Reading.run_cons ..
  | cons item items ih =>
      have hstep : Reading.run ⟨.separator, .array seen :: stack⟩
          (itemsTokens (item :: items) ++ .closeArray :: rest)
          = Reading.run ⟨.value, .array seen :: stack⟩
            (tokens item ++ (itemsTokens items ++ .closeArray :: rest)) := by
        simp only [itemsTokens, List.cons_append, List.append_assoc]
        rfl
      rw [List.forall_mem_cons] at hitems
      rw [hstep, hitems.1]
      refine (ih hitems.2 (item :: seen)).trans ?_
      rw [List.reverse_cons, List.append_assoc, List.singleton_append]

/-- A member as it stands on the stack, with a key that has text. -/
def named (member : String × Json) : Option String × Json :=
  (some member.1, member.2)

/-- Members with text for every key are an object. -/
theorem ofMembers_named (members : List (String × Json)) :
    ofMembers (members.map named) = .object members := by
  have hkeys : (members.map named).mapM
      (fun member => member.1.map fun text => (text, member.2)) = some members := by
    -- Every key has text, so no step of the `mapM` fails.
    rw [List.mapM_map]
    induction members with
    | nil => rfl
    | cons member members ih =>
        rw [List.mapM_cons, ih]
        rfl
  simp only [ofMembers, hkeys]

/-- Members and the end of their object complete the object. -/
theorem run_membersTokens {members : List (String × Json)}
    (hmembers : ∀ member ∈ members, Completes member.2) (seen : List (String × Json))
    (stack : List Frame) (rest : List Token) :
    Reading.run ⟨.separator, .object (seen.reverse.map named) :: stack⟩
        (membersTokens members ++ .closeObject :: rest)
      = resume rest (complete (.object (seen ++ members)) stack) := by
  induction members generalizing seen with
  | nil =>
      refine (Reading.run_cons ..).trans ?_
      show resume rest (complete (ofMembers (seen.reverse.map named).reverse) stack) = _
      rw [← List.map_reverse, List.reverse_reverse, ofMembers_named, List.append_nil]
  | cons member members ih =>
      obtain ⟨key, value⟩ := member
      have hstep : Reading.run ⟨.separator, .object (seen.reverse.map named) :: stack⟩
          (membersTokens ((key, value) :: members) ++ .closeObject :: rest)
          = Reading.run ⟨.value, .member (seen.reverse.map named) (some key) :: stack⟩
            (tokens value ++ (membersTokens members ++ .closeObject :: rest)) := by
        simp only [membersTokens, List.cons_append, List.append_assoc]
        rfl
      rw [List.forall_mem_cons] at hmembers
      have hvalue : Completes value := hmembers.1
      rw [hstep, hvalue]
      have hrest := ih hmembers.2 (seen ++ [(key, value)])
      rw [List.reverse_append, List.append_assoc] at hrest
      exact hrest

/-- An array is taken up if its items are. -/
theorem run_array {item : Json} {items : List Json} (hitem : Completes item)
    (hitems : ∀ other ∈ items, Completes other) : Completes (.array (item :: items)) := by
  intro stack rest
  have hopen : Reading.run ⟨.value, stack⟩ (tokens (.array (item :: items)) ++ rest)
      = Reading.run ⟨.firstItem, .array [] :: stack⟩
        (tokens item ++ (itemsTokens items ++ .closeArray :: rest)) := by
    simp only [tokens, List.cons_append, List.append_assoc, List.nil_append]
    rfl
  rw [hopen, run_firstItem, hitem]
  exact run_itemsTokens hitems [item] stack rest

/-- An object is taken up if its values are. -/
theorem run_object {key : String} {value : Json} {members : List (String × Json)}
    (hvalue : Completes value) (hmembers : ∀ other ∈ members, Completes other.2) :
    Completes (.object ((key, value) :: members)) := by
  intro stack rest
  have hopen : Reading.run ⟨.value, stack⟩ (tokens (.object ((key, value) :: members)) ++ rest)
      = Reading.run ⟨.value, .member [] (some key) :: stack⟩
        (tokens value ++ (membersTokens members ++ .closeObject :: rest)) := by
    simp only [tokens, List.cons_append, List.append_assoc, List.nil_append]
    rfl
  rw [hopen, hvalue]
  exact run_membersTokens hmembers [(key, value)] stack rest

/-- The tokens of a value complete it. -/
theorem Writable.run_tokens {j : Json} (h : Writable j) : Completes j := by
  induction h with
  | null => exact fun _ _ => Reading.run_cons ..
  | bool b => exact fun _ _ => Reading.run_cons ..
  | number => exact fun _ _ => Reading.run_cons ..
  | string s => exact fun _ _ => Reading.run_cons ..
  | @array items _ ih =>
      cases items with
      | nil => exact fun _ _ => Reading.run_cons ..
      | cons item items =>
          rw [List.forall_mem_cons] at ih
          exact run_array ih.1 ih.2
  | @object members _ ih =>
      cases members with
      | nil => exact fun _ _ => Reading.run_cons ..
      | cons member members =>
          rw [List.forall_mem_cons] at ih
          exact run_object ih.1 ih.2

/-! ### The round trip -/

/-- A written value is the first value of its text, and blanks may follow. -/
theorem Writable.readPrefix_text {j : Json} (h : Writable j) (style : Style) (blanks : List Char)
    (hblanks : ∀ c ∈ blanks, isBlank c = true) :
    readPrefix (text style j ++ String.ofList blanks) = some (j, []) := by
  have hends : EndsRun blanks := fun c hc =>
    Token.isRunChar_of_isBlank (hblanks c (List.mem_of_mem_head? hc))
  have hnothing : scan .between blanks = [] := by
    simpa [scan, Token.atEnd] using Token.scan_blanks hblanks []
  have hscan : scan .between (text style j ++ String.ofList blanks).toList = tokens j ++ [] := by
    rw [text, String.toList_append, String.toList_ofList, String.toList_ofList,
      h.scan_textAt style 0 blanks hends, hnothing]
  rw [readPrefix, hscan, h.run_tokens]
  rfl

/-- What is written is read back. -/
theorem Writable.read_text {j : Json} (h : Writable j) (style : Style) :
    read (text style j) = some j := by
  have hprefix := h.readPrefix_text style [] (by simp)
  rw [String.ofList_nil, String.append_empty] at hprefix
  rw [read, hprefix]

/-! ### Strict documents -/

/-- Items are representable when each of them is. -/
theorem itemsRepresentable_iff {items : List Json} :
    itemsRepresentable items = true ↔ ∀ item ∈ items, item.isRepresentable = true := by
  induction items with
  | nil => simp [itemsRepresentable]
  | cons item items ih => simp [itemsRepresentable, ih]

/-- Members are representable when each value is. -/
theorem membersRepresentable_iff {members : List (String × Json)} :
    membersRepresentable members = true ↔ ∀ member ∈ members, member.2.isRepresentable = true := by
  induction members with
  | nil => simp [membersRepresentable]
  | cons member members ih => simp [membersRepresentable, ih]

/-- What is written has a value throughout. -/
theorem Writable.isRepresentable {j : Json} (h : Writable j) : j.isRepresentable = true := by
  induction h with
  | array _ ih => exact itemsRepresentable_iff.mpr ih
  | object _ ih => exact membersRepresentable_iff.mpr ih
  | _ => rfl

/-- Items are as deep as the deepest of them. -/
theorem itemsDepth_le {items : List Json} {bound : Nat} (h : ∀ item ∈ items, item.depth ≤ bound) :
    itemsDepth items ≤ bound := by
  induction items with
  | nil => exact Nat.zero_le bound
  | cons item items ih =>
      rw [List.forall_mem_cons] at h
      exact Nat.max_le.mpr ⟨h.1, ih h.2⟩

/-- Members are as deep as the deepest of their values. -/
theorem membersDepth_le {members : List (String × Json)} {bound : Nat}
    (h : ∀ member ∈ members, member.2.depth ≤ bound) : membersDepth members ≤ bound := by
  induction members with
  | nil => exact Nat.zero_le bound
  | cons member members ih =>
      rw [List.forall_mem_cons] at h
      exact Nat.max_le.mpr ⟨h.1, ih h.2⟩

/-- A document that is not nested too deeply is taken up as a whole when it is read back. -/
theorem Writable.readStrict_text {j : Json} (h : Writable j) (hdepth : j.depth ≤ maxDepth)
    (style : Style) (blanks : List Char) (hblanks : ∀ c ∈ blanks, isBlank c = true) :
    readStrict (text style j ++ String.ofList blanks) = some j := by
  have hstrict : j.isStrict = true := by
    simp [isStrict, h.isRepresentable, hdepth]
  have hread : read (text style j ++ String.ofList blanks) = some j := by
    rw [read, h.readPrefix_text style blanks hblanks]
  rw [readStrict, hread, Option.filter_some, if_pos hstrict]

end FlightPlan.Json
