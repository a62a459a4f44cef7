import FlightPlan.Json.Record

/-!
# `FlightPlan.Proofs.Json.Record`: what a structure is read from

A structure can be laid out in a document in many ways. `Field.given` passes over the layout: it
lists the values that a document gives for a field, in an object under whichever of its names, and
in an array at its place. When no name belongs to two fields (`Field.Apart`), these lists are all
that reading goes by:

* `exists_record_object_iff`: an object is a record exactly when none of its fields is given twice;
* `get?_of_record`: a record holds for each field the value that is given for it.

`Reads` says what comes of the values given for a field: one value has to mean something, and no
value has to stand for something. `required_eq_some_iff`, `getD_eq_some_iff` and
`optional_eq_some_iff` are the three ways to look at a field in these terms.

`Relaid` is a change of layout: members in another order, members of no field, and a field under
another of its names. It gives for every field what was given before (`Relaid.perm_underAny`).
-/

set_option autoImplicit false

namespace FlightPlan.Json

/-! ### Names -/

/-- All names a field is read under. -/
def Field.names (f : Field) : List String :=
  f.name :: f.aliases

/-- A field answers to its name and its aliases. -/
theorem Field.answersTo_iff {f : Field} {key : String} :
    f.answersTo key = true ↔ key ∈ f.names := by
  simp only [answersTo, names, Bool.or_eq_true, beq_iff_eq, List.contains_iff_mem, List.mem_cons,
    eq_comm (a := key)]

/-- No name belongs to two fields. -/
def Field.Apart (fields : List Field) : Prop :=
  fields.Pairwise fun f g => ∀ key ∈ f.names, key ∉ g.names

/-- It can be decided whether no two fields answer to one key. -/
instance (fields : List Field) : Decidable (Field.Apart fields) :=
  inferInstanceAs (Decidable (fields.Pairwise _))

variable {fields : List Field} {f g : Field} {members others : List (String × Json)}

/-- A field is found under each of its names. -/
theorem find?_answersTo (hapart : Field.Apart fields) (hf : f ∈ fields) {key : String}
    (hkey : key ∈ f.names) : fields.find? (·.answersTo key) = some f := by
  induction fields with
  | nil => contradiction
  | cons g rest ih =>
      obtain ⟨hg, hrest⟩ := List.pairwise_cons.mp hapart
      simp only [List.find?_cons]
      rcases List.mem_cons.mp hf with rfl | hf
      · rw [Field.answersTo_iff.mpr hkey]
      · have hother : g.answersTo key = false := by
          rw [Bool.eq_false_iff, ne_eq, Field.answersTo_iff]
          intro hkey'
          exact hg f hf key hkey' hkey
        rw [hother]
        exact ih hrest hf

/-- Fields that share a name are the same. -/
theorem eq_of_mem_names (hapart : Field.Apart fields) (hf : f ∈ fields) (hg : g ∈ fields)
    {key : String} (hkey : key ∈ f.names) (hkey' : key ∈ g.names) : f = g := by
  have hfound := find?_answersTo hapart hf hkey
  rw [find?_answersTo hapart hg hkey'] at hfound
  exact (Option.some.inj hfound).symm

/-- Fields that are apart have different names. -/
theorem nodup_names (hapart : Field.Apart fields) : (fields.map Field.name).Nodup := by
  refine List.pairwise_map.mpr (hapart.imp ?_)
  intro f g hnames hsame
  exact hnames f.name List.mem_cons_self (hsame ▸ List.mem_cons_self)

/-! ### Values given -/

/-- The values that members give under any of some keys. -/
def underAny (keys : List String) (members : List (String × Json)) : List Json :=
  members.filterMap fun member => if member.1 ∈ keys then some member.2 else none

/-- The values that a document gives for one of some fields. -/
def Field.given (fields : List Field) (f : Field) : Json → List Json
  | .object members => underAny f.names members
  | .array items => underAny [f.name] ((fields.map Field.name).zip items)
  | _ => []

/-- What is looked up is the first value under the key. -/
theorem lookup_eq_head? (key : String) (members : List (String × Json)) :
    members.lookup key = (underAny [key] members).head? := by
  rw [List.lookup_eq_findSome?, underAny, List.head?_filterMap]
  congr 1
  funext member
  by_cases h : member.1 = key
  · simp [h]
  · simp [h, Ne.symm h]

/-- Keys come once each when there is no more than one value under any. -/
theorem nodup_keys_iff :
    (members.map Prod.fst).Nodup ↔ ∀ key, (underAny [key] members).length ≤ 1 := by
  rw [List.nodup_iff_count]
  refine forall_congr' fun key => ?_
  have hcount : (members.map Prod.fst).count key = (underAny [key] members).length := by
    rw [underAny, List.length_filterMap_eq_countP, List.count_eq_countP, List.countP_map]
    refine List.countP_congr fun member _ => ?_
    by_cases h : member.1 = key <;> simp [h]
  rw [hcount]

/-- A member is claimed by a field exactly when it is under one of the field's names. -/
theorem claimedBy_eq_some_iff (hapart : Field.Apart fields) (hf : f ∈ fields)
    {member : String × Json} {value : Json} :
    claimedBy fields member = some (f.name, value) ↔ member.1 ∈ f.names ∧ member.2 = value := by
  rw [claimedBy, Option.map_eq_some_iff]
  constructor
  · rintro ⟨g, hfound, hclaimed⟩
    obtain ⟨hname, rfl⟩ := Prod.mk.inj hclaimed
    -- The names of `f` and of the field found are the same, so the two fields are.
    have hg : f.name ∈ g.names := hname ▸ List.mem_cons_self
    obtain rfl :=
      eq_of_mem_names hapart hf (List.mem_of_find?_eq_some hfound) List.mem_cons_self hg
    have hanswers := List.find?_some hfound
    exact ⟨Field.answersTo_iff.mp hanswers, rfl⟩
  · rintro ⟨hkey, rfl⟩
    exact ⟨f, find?_answersTo hapart hf hkey, rfl⟩

/-- Claimed members are under the name of a field exactly when they are given for it. -/
theorem underAny_claimed (hapart : Field.Apart fields) (hf : f ∈ fields) :
    underAny [f.name] (members.filterMap (claimedBy fields)) = underAny f.names members := by
  rw [underAny, underAny, List.filterMap_filterMap]
  congr 1
  funext member
  ext value
  rw [Option.bind_eq_some_iff, Option.ite_none_right_eq_some, Option.some_inj,
    ← claimedBy_eq_some_iff hapart hf]
  constructor
  · rintro ⟨⟨name, value'⟩, hclaimed, hvalue⟩
    simp only [List.mem_singleton, Option.ite_none_right_eq_some, Option.some_inj] at hvalue
    obtain ⟨rfl, rfl⟩ := hvalue
    exact hclaimed
  · intro hclaimed
    exact ⟨_, hclaimed, if_pos List.mem_cons_self⟩

/-- Under any other name there is no claimed member. -/
theorem underAny_claimed_of_not_mem {key : String} (hkey : key ∉ fields.map Field.name) :
    underAny [key] (members.filterMap (claimedBy fields)) = [] := by
  rw [underAny, List.filterMap_eq_nil_iff]
  intro given hgiven
  obtain ⟨member, -, hclaimed⟩ := List.mem_filterMap.mp hgiven
  obtain ⟨g, hg, rfl⟩ := Option.map_eq_some_iff.mp hclaimed
  refine if_neg fun hsame => hkey ?_
  rw [← List.mem_singleton.mp hsame]
  exact List.mem_map_of_mem (List.mem_of_find?_eq_some hg)

/-! ### Records -/

/-- An object is a record exactly when no field is given twice. -/
theorem exists_record_object_iff (hapart : Field.Apart fields) :
    (∃ r, record fields (.object members) = some r) ↔
      ∀ f ∈ fields, (underAny f.names members).length ≤ 1 := by
  have hrecord : (∃ r, record fields (.object members) = some r) ↔
      ((members.filterMap (claimedBy fields)).map Prod.fst).Nodup := by
    simp only [record]
    split <;> simp [*]
  rw [hrecord, nodup_keys_iff]
  constructor
  · intro h f hf
    rw [← underAny_claimed hapart hf]
    exact h f.name
  · intro h key
    by_cases hkey : key ∈ fields.map Field.name
    · obtain ⟨f, hf, rfl⟩ := List.mem_map.mp hkey
      rw [underAny_claimed hapart hf]
      exact h f hf
    · rw [underAny_claimed_of_not_mem hkey]
      exact Nat.zero_le 1

section
variable {j : Json} {r : Record} (hapart : Field.Apart fields) (h : record fields j = some r)
  (hf : f ∈ fields)
include hapart h hf

/-- A record holds for each field the first value given for it. -/
theorem get?_of_record : r.get? f.name = (f.given fields j).head? := by
  unfold record at h
  split at h
  · simp only at h
    split at h
    · obtain rfl := Option.some.inj h
      rw [Record.get?, lookup_eq_head?, underAny_claimed hapart hf, Field.given]
    · contradiction
  · split at h
    · obtain rfl := Option.some.inj h
      exact lookup_eq_head? _ _
    · contradiction
  · contradiction

/-- No field of a record is given twice. -/
theorem length_given_le : (f.given fields j).length ≤ 1 := by
  cases j with
  | object members => exact (exists_record_object_iff hapart).mp ⟨r, h⟩ f hf
  | array items =>
      refine nodup_keys_iff.mp ?_ f.name
      rw [List.zip_eq_zip_take_min, List.map_fst_zip (by simp)]
      exact (nodup_names hapart).sublist (List.take_sublist _ _)
  | _ => contradiction

end

/-! ### Meanings -/

/-- The value is this number. -/
inductive IsNumber : Json → Float → Prop
  | number (n : Number) : IsNumber (.number n) n.toFloat

/-- The value is this text. -/
inductive IsText : Json → String → Prop
  | string (s : String) : IsText (.string s) s

/-- The value is this truth value. -/
inductive IsTruth : Json → Bool → Prop
  | bool (b : Bool) : IsTruth (.bool b) b

/-- Either `null`, or something with a meaning. -/
inductive Nullable {α : Type} (means : Json → α → Prop) : Json → Option α → Prop
  | null : Nullable means .null none
  | value {value : Json} {a : α} (h : means value a) : Nullable means value (some a)

/-- A value is read as a number when it is that number. -/
theorem float?_eq_some_iff (j : Json) (x : Float) : j.float? = some x ↔ IsNumber j x := by
  constructor
  · intro h
    cases j with
    | number n =>
        obtain rfl := Option.some.inj h
        exact .number n
    | _ => contradiction
  · rintro ⟨⟩
    rfl

/-- A value is read as a text when it is that text. -/
theorem string?_eq_some_iff (j : Json) (s : String) : j.string? = some s ↔ IsText j s := by
  constructor
  · intro h
    cases j with
    | string s =>
        obtain rfl := Option.some.inj h
        exact .string s
    | _ => contradiction
  · rintro ⟨⟩
    rfl

/-- A value is read as a truth value when it is that one. -/
theorem bool?_eq_some_iff (j : Json) (b : Bool) : j.bool? = some b ↔ IsTruth j b := by
  constructor
  · intro h
    cases j with
    | bool b =>
        obtain rfl := Option.some.inj h
        exact .bool b
    | _ => contradiction
  · rintro ⟨⟩
    rfl

/-! ### Reading -/

/-- What is made of the values given for a field: what its one value means, or what stands for it
when there is none. -/
inductive Reads {α : Type} (means : Json → α → Prop) (standsFor : α → Prop) : List Json → α → Prop
  | given {value : Json} {a : α} (h : means value a) : Reads means standsFor [value] a
  | absent {a : α} (h : standsFor a) : Reads means standsFor [] a

section
variable {α : Type} {means : Json → α → Prop} {standsFor : α → Prop} {values : List Json} {a : α}

/-- One value is read as what it means. -/
theorem reads_singleton_iff {value : Json} : Reads means standsFor [value] a ↔ means value a := by
  constructor
  · rintro ⟨h⟩
    exact h
  · exact .given

/-- Where no value is given, what stands for it is read. -/
theorem reads_nil_iff : Reads means standsFor [] a ↔ standsFor a := by
  constructor
  · rintro ⟨⟩
    assumption
  · exact .absent

/-- Of two values nothing is read. -/
theorem Reads.length_le (h : Reads means standsFor values a) : values.length ≤ 1 := by
  cases h <;> simp

/-- Something comes of values when there is no more than one, which means something, and something
stands for it when there is none. -/
theorem exists_reads_iff : (∃ a, Reads means standsFor values a) ↔
    values.length ≤ 1 ∧ (values = [] → ∃ a, standsFor a) ∧
      ∀ value ∈ values, ∃ a, means value a := by
  match values with
  | [] => simp [reads_nil_iff]
  | [value] => simp [reads_singleton_iff]
  | _ :: _ :: _ =>
      refine iff_of_false ?_ (by simp)
      rintro ⟨a, h⟩
      simpa using h.length_le

/-- When there is no more than one value, there is only one order. -/
theorem eq_of_perm {values' : List Json} (h : values.Perm values') (hlength : values.length ≤ 1) :
    values = values' := by
  match values, hlength with
  | [], _ => exact h.nil_eq
  | [_], _ => exact h.singleton_eq

/-- What comes of values does not depend on their order. -/
theorem reads_congr {values' : List Json} (h : values.Perm values') :
    Reads means standsFor values a ↔ Reads means standsFor values' a := by
  constructor
  · intro hreads
    rwa [← eq_of_perm h hreads.length_le]
  · intro hreads
    rwa [← eq_of_perm h.symm hreads.length_le]

variable {j : Json} {r : Record} {decode : Json → Option α}
  (hapart : Field.Apart fields) (h : record fields j = some r) (hf : f ∈ fields)
  (hdecode : ∀ value a, decode value = some a ↔ means value a)
include hapart h hf hdecode

/-- A required field is given exactly once, with a value that has a meaning. -/
theorem Record.required_eq_some_iff :
    r.required f.name decode = some a ↔ Reads means (fun _ => False) (f.given fields j) a := by
  rw [required, get?_of_record hapart h hf]
  match f.given fields j, length_given_le hapart h hf with
  | [], _ => simp [reads_nil_iff]
  | [value], _ => simp [reads_singleton_iff, hdecode]

/-- A field with a default has the meaning of its value, or the default where it is not given. -/
theorem Record.getD_eq_some_iff {default : α} :
    r.getD f.name decode default = some a ↔ Reads means (· = default) (f.given fields j) a := by
  rw [getD, get?_of_record hapart h hf]
  match f.given fields j, length_given_le hapart h hf with
  | [], _ => simp [reads_nil_iff, eq_comm]
  | [value], _ => simp [reads_singleton_iff, hdecode]

/-- An optional field has the meaning of its value, and `null` is as if it were not given. -/
theorem Record.optional_eq_some_iff (hnull : decode .null = none) {a : Option α} :
    r.optional f.name decode = some a ↔
      Reads (Nullable means) (· = none) (f.given fields j) a := by
  rw [optional, get?_of_record hapart h hf]
  match f.given fields j, length_given_le hapart h hf with
  | [], _ => simp [reads_nil_iff, eq_comm]
  | [value], _ =>
      rw [reads_singleton_iff, List.head?_cons]
      -- Whether a value is `null` is asked before it is decoded.
      by_cases hvalue : value = .null
      · subst hvalue
        constructor
        · intro hread
          obtain rfl := Option.some.inj hread
          exact .null
        · rintro (_ | hmeans)
          · rfl
          · rw [← hdecode, hnull] at hmeans
            contradiction
      · have hsplit : Nullable means value a ↔ ∃ b, decode value = some b ∧ some b = a := by
          constructor
          · rintro (_ | hmeans)
            · contradiction
            · exact ⟨_, (hdecode _ _).mpr hmeans, rfl⟩
          · rintro ⟨b, hb, rfl⟩
            exact .value ((hdecode _ _).mp hb)
        rw [hsplit, ← Option.map_eq_some_iff]
        cases value <;> simp_all

end

/-! ### Changes of layout -/

/-- The other members give the same values for the fields, in another layout. -/
inductive Relaid (fields : List Field) : List (String × Json) → List (String × Json) → Prop
  | reordered {members others : List (String × Json)} (h : members.Perm others) :
      Relaid fields members others
  | extended (key : String) (value : Json) (members : List (String × Json))
      (h : ∀ f ∈ fields, key ∉ f.names) : Relaid fields members ((key, value) :: members)
  | renamed {f : Field} (hf : f ∈ fields) {key key' : String} (hkey : key ∈ f.names)
      (hkey' : key' ∈ f.names) (value : Json) (members : List (String × Json)) :
      Relaid fields ((key, value) :: members) ((key', value) :: members)
  | symm {members others : List (String × Json)} (h : Relaid fields members others) :
      Relaid fields others members
  | trans {members others more : List (String × Json)} (h : Relaid fields members others)
      (h' : Relaid fields others more) : Relaid fields members more

/-- The values under some keys, member by member. -/
theorem underAny_cons (keys : List String) (key : String) (value : Json)
    (members : List (String × Json)) :
    underAny keys ((key, value) :: members) =
      if key ∈ keys then value :: underAny keys members else underAny keys members := by
  rw [underAny, List.filterMap_cons]
  split <;> split <;> simp_all [underAny]

/-- Another layout gives the same values for each field. -/
theorem Relaid.perm_underAny (hapart : Field.Apart fields) (h : Relaid fields members others)
    (hf : f ∈ fields) : (underAny f.names members).Perm (underAny f.names others) := by
  induction h with
  | reordered h => exact h.filterMap _
  | extended key value members hkey =>
      rw [underAny_cons, if_neg (hkey f hf)]
  | renamed hg hkey hkey' value members =>
      rename_i g key key'
      -- The two names belong to the same field, so `f` has both or none of them.
      have hsame : key ∈ f.names ↔ key' ∈ f.names := by
        constructor
        · intro hmem
          rwa [eq_of_mem_names hapart hf hg hmem hkey]
        · intro hmem
          rwa [eq_of_mem_names hapart hf hg hmem hkey']
      simp only [underAny_cons, hsame]
      exact List.Perm.refl _
  | symm _ ih => exact ih.symm
  | trans _ _ ih ih' => exact ih.trans ih'

end FlightPlan.Json
