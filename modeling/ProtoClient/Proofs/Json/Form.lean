import ProtoClient.Proofs.Descriptor.Reading
import ProtoClient.Schema.Json

/-!
# Forms of JSON values

Which JSON values stand for a value, said without a reader: a relation between values and JSON for
each kind of value, and a way to put such relations together into those of lists, choices and
records. Each reader is shown to read a value from exactly the JSON that has the form of the value.

## Main definitions

* `Json.IsText`, `Json.IsBool`, `Json.IsInteger`, `Json.IsNatural`, `Json.IsList`, `Json.IsCase`:
  the forms of the parts of records
* `Json.Has`, `Json.MayHave`: what a record says for a key
* `Json.IsRecordOf`: the form of a record of which each part is known
* `Json.IsLossless`: a writer and a reader that go along with a form

## Main results

* `Json.isRecordOf_iff`: a record in terms of the members that are read
* `Json.list?_eq_some_iff`, `Json.optional?_eq_some_iff`: a list and an option are read from the
  JSON of their form
* `Json.IsLossless.of_form`: what is written in the right form is read back
-/

namespace ProtoClient

namespace Json

variable {α β : Type} {json : Json}

/-! ### Texts, truth values and numbers -/

/-- The JSON of a text. -/
def IsText (text : String) (json : Json) : Prop :=
  json = .string text

/-- The JSON of a truth value. -/
def IsBool (value : Bool) (json : Json) : Prop :=
  json = .bool value

/-- The JSON of a whole number of 32 bits with a sign. -/
def IsInteger (value : Int) (json : Json) : Prop :=
  json = .whole value ∧ IsInt32 value

/-- The JSON of a whole number of 64 bits without a sign. -/
def IsNatural (value : Nat) (json : Json) : Prop :=
  json = .whole value ∧ value < 2 ^ 64

@[simp] theorem isText_string (text : String) : IsText text (.string text) := rfl

@[simp] theorem isBool_bool (value : Bool) : IsBool value (.bool value) := rfl

theorem string?_eq_some_iff {text : String} : json.string? = some text ↔ IsText text json := by
  cases json <;> simp [string?, IsText]

theorem bool?_eq_some_iff {value : Bool} : json.bool? = some value ↔ IsBool value json := by
  cases json <;> simp [bool?, IsBool]

theorem int32?_eq_some_iff {value : Int} : json.int32? = some value ↔ IsInteger value json := by
  constructor
  · intro h
    unfold int32? at h
    split at h
    · obtain ⟨⟨hlow, hhigh⟩, h⟩ := Option.ite_none_right_eq_some.mp h
      cases h
      exact ⟨rfl, by omega, by omega⟩
    · cases h
  · rintro ⟨rfl, hlow, hhigh⟩
    exact int32?_whole (by omega) (by omega)

theorem natural?_eq_some_iff {value : Nat} : json.natural? = some value ↔ IsNatural value json := by
  constructor
  · intro h
    unfold natural? at h
    split at h
    · obtain ⟨⟨hlow, hhigh⟩, h⟩ := Option.ite_none_right_eq_some.mp h
      cases h
      exact ⟨by rw [Int.toNat_of_nonneg hlow], by omega⟩
    · cases h
  · rintro ⟨rfl, hrange⟩
    exact natural?_whole (by omega)

/-! ### Lists -/

/-- **The JSON of a list**: an array with an item for each of its members. -/
def IsList (form : α → Json → Prop) (values : List α) (json : Json) : Prop :=
  ∃ items, json = .array items ∧ List.Forall₂ form values items

theorem mapM_eq_some_iff_forall₂ {read : Json → Option α} {form : α → Json → Prop}
    {values : List α} {items : List Json}
    (h : ∀ value ∈ values, ∀ item, read item = some value ↔ form value item) :
    items.mapM read = some values ↔ List.Forall₂ form values items := by
  induction items generalizing values with
  | nil => simp [eq_comm]
  | cons item items ih =>
    rw [List.mapM_cons, List.forall₂_cons_right_iff]
    simp only [Option.bind_eq_bind, Option.bind_eq_some_iff, Option.pure_def, Option.some.injEq]
    constructor
    · rintro ⟨value, hread, others, hreads, rfl⟩
      obtain ⟨hvalue, hothers⟩ := List.forall_mem_cons.mp h
      exact ⟨value, others, (hvalue item).mp hread, (ih hothers).mp hreads, rfl⟩
    · rintro ⟨value, others, hform, hforms, rfl⟩
      obtain ⟨hvalue, hothers⟩ := List.forall_mem_cons.mp h
      exact ⟨value, (hvalue item).mpr hform, others, (ih hothers).mpr hforms, rfl⟩

/-- **A list is read from the JSON of its form**, when this is so for each of its members. -/
theorem list?_eq_some_iff {read : Json → Option α} {form : α → Json → Prop} {values : List α}
    (h : ∀ value ∈ values, ∀ item, read item = some value ↔ form value item) :
    list? read json = some values ↔ IsList form values json := by
  cases json with
  | array items => simp [list?, array?, IsList, mapM_eq_some_iff_forall₂ h]
  | _ => simp [list?, array?, IsList]

theorem isList_map {form : α → Json → Prop} {write : α → Json} {values : List α}
    (h : ∀ value ∈ values, form value (write value)) :
    IsList form values (.array (values.map write)) :=
  ⟨_, rfl, List.forall₂_map_right_iff.mpr (List.forall₂_same.mpr h)⟩

theorem IsList.exists_of_mem {form : α → Json → Prop} {values : List α} {value : α}
    (h : IsList form values json) (hmem : value ∈ values) : ∃ item, form value item := by
  obtain ⟨items, -, hforms⟩ := h
  obtain ⟨i, hi, rfl⟩ := List.getElem_of_mem hmem
  exact ⟨_, hforms.get hi (hforms.length_eq ▸ hi)⟩

/-! ### Choices -/

/-- **The JSON of a case without a value**: its name, which may be written with null as value. -/
def IsCase (name : String) (json : Json) : Prop :=
  json = .string name ∨ json = .object [(name, .null)]

theorem bareCase?_eq_some_iff {name : String} : json.bareCase? = some name ↔ IsCase name json := by
  constructor
  · intro h
    unfold bareCase? case? at h
    grind [IsCase]
  · rintro (rfl | rfl) <;> rfl

theorem case?_eq_some_some_iff {name : String} {value : Json} :
    json.case? = some (name, some value) ↔ json = .object [(name, value)] := by
  constructor
  · intro h
    unfold case? at h
    grind
  · rintro rfl
    rfl

/-! ### Records -/

/-- A record says a value for a key. -/
def Has (form : α → Json → Prop) (value : α) (part : Option Json) : Prop :=
  ∃ json, part = some json ∧ form value json

/-- **A record may say a value for a key**: where there is none, the key is absent or null. -/
def MayHave (form : α → Json → Prop) : Option α → Option Json → Prop
  | none, part => part = none ∨ part = some .null
  | some value, part => Has form value part

/-- **The JSON of a record**, given what it says for each key: an object that says this under the
keys, whatever their order and whatever further keys it has, or the array of the parts. -/
inductive IsRecordOf (parts : List (String × (Option Json → Prop))) : Json → Prop
  | object {fields : List (String × Json)} (h : ∀ part ∈ parts, part.2 (fields.lookup part.1)) :
    IsRecordOf parts (.object fields)
  | array {items : List Json} (h : List.Forall₂ (fun part item => part.2 (some item)) parts items) :
    IsRecordOf parts (.array items)

theorem isRecordOf_object_iff {parts : List (String × (Option Json → Prop))}
    {fields : List (String × Json)} :
    IsRecordOf parts (.object fields) ↔ ∀ part ∈ parts, part.2 (fields.lookup part.1) :=
  ⟨fun h => by cases h; assumption, .object⟩

/-- **A record in terms of its members**: each of them is as the part of the key wants it. -/
theorem isRecordOf_iff {parts : List (String × (Option Json → Prop))} :
    IsRecordOf parts json ↔ ∃ values, List.Forall₂ (fun part value => part.2 value) parts values ∧
      json.members? (parts.map Prod.fst) = some values := by
  constructor
  · rintro (@⟨fields, h⟩ | @⟨items, h⟩)
    · refine ⟨_, ?_, rfl⟩
      rw [List.map_map, List.forall₂_map_right_iff, List.forall₂_same]
      exact h
    · refine ⟨items.map some, List.forall₂_map_right_iff.mpr h, ?_⟩
      rw [members?, if_pos (by rw [List.length_map, h.length_eq])]
  · rintro ⟨values, h, hmembers⟩
    unfold members? at hmembers
    split at hmembers
    · cases hmembers
      rw [List.map_map, List.forall₂_map_right_iff, List.forall₂_same] at h
      exact .object h
    · split at hmembers
      · cases hmembers
        exact .array (List.forall₂_map_right_iff.mp h)
      · cases hmembers
    · cases hmembers

theorem IsRecordOf.exists_part {parts : List (String × (Option Json → Prop))}
    {p : Option Json → Prop} (h : IsRecordOf parts json) (key : String) (hmem : (key, p) ∈ parts) :
    ∃ part, p part := by
  cases h with
  | object h => exact ⟨_, h _ hmem⟩
  | array h =>
    obtain ⟨i, hi, hpart⟩ := List.getElem_of_mem hmem
    have hitem := h.get hi (h.length_eq ▸ hi)
    rw [List.get_eq_getElem, hpart] at hitem
    exact ⟨_, hitem⟩

/-! The members of a record of which all keys are given are named one by one. -/

theorem exists_forall₂_nil {r : α → β → Prop} {p : List β → Prop} :
    (∃ ys, List.Forall₂ r [] ys ∧ p ys) ↔ p [] := by
  simp

theorem exists_forall₂_cons {r : α → β → Prop} {p : List β → Prop} {x : α} {xs : List α} :
    (∃ ys, List.Forall₂ r (x :: xs) ys ∧ p ys) ↔
      ∃ y, r x y ∧ ∃ ys, List.Forall₂ r xs ys ∧ p (y :: ys) := by
  constructor
  · rintro ⟨_, _ | ⟨h, hrest⟩, hp⟩
    exact ⟨_, h, _, hrest, hp⟩
  · rintro ⟨y, h, ys, hrest, hp⟩
    exact ⟨y :: ys, .cons h hrest, hp⟩

theorem exists_has {form : α → Json → Prop} {value : α} {p : Option Json → Prop} :
    (∃ part, Has form value part ∧ p part) ↔ ∃ json, form value json ∧ p (some json) := by
  constructor
  · rintro ⟨_, ⟨json, rfl, hform⟩, hp⟩
    exact ⟨json, hform, hp⟩
  · rintro ⟨json, hform, hp⟩
    exact ⟨some json, ⟨json, rfl, hform⟩, hp⟩

@[simp] theorem has_some {form : α → Json → Prop} {value : α} :
    Has form value (some json) ↔ form value json := by
  simp [Has]

/-- **An option is read from the JSON of its form**, when null is no form of a value. -/
theorem optional?_eq_some_iff {read : Json → Option α} {form : α → Json → Prop}
    {value : Option α} {part : Option Json} (hnull : read .null = none)
    (h : ∀ value item, read item = some value ↔ form value item) :
    optional? read part = some value ↔ MayHave form value part := by
  constructor
  · intro hread
    unfold optional? at hread
    split at hread
    · cases hread
      exact .inl rfl
    · cases hread
      exact .inr rfl
    · next item _ =>
      obtain ⟨given, hgiven, rfl⟩ := Option.map_eq_some_iff.mp hread
      exact ⟨item, rfl, (h given item).mp hgiven⟩
  · intro hpart
    cases value with
    | none => rcases hpart with rfl | rfl <;> rfl
    | some given =>
      obtain ⟨item, rfl, hform⟩ := hpart
      have hread := (h given item).mpr hform
      cases item with
      | null => exact absurd (hnull.symm.trans hread) nofun
      | _ => simp only [optional?, hread, Option.map_some]

theorem optionalString?_eq_some_iff {value : Option String} {part : Option Json} :
    optional? string? part = some value ↔ MayHave IsText value part :=
  optional?_eq_some_iff rfl fun _ _ => string?_eq_some_iff

theorem optionalNatural?_eq_some_iff {value : Option Nat} {part : Option Json} :
    optional? natural? part = some value ↔ MayHave IsNatural value part :=
  optional?_eq_some_iff rfl fun _ _ => natural?_eq_some_iff

theorem mayHave_ofOption {form : α → Json → Prop} {write : α → Json} {value : Option α}
    (h : ∀ given ∈ value, form given (write given)) :
    MayHave form value (some (ofOption write value)) := by
  cases value with
  | none => exact .inr rfl
  | some given => exact ⟨_, rfl, h given rfl⟩

theorem MayHave.exists_of_mem {form : α → Json → Prop} {value : Option α} {given : α}
    {part : Option Json} (h : MayHave form value part) (hmem : given ∈ value) :
    ∃ item, form given item := by
  cases Option.mem_def.mp hmem
  obtain ⟨item, -, hform⟩ := h
  exact ⟨item, hform⟩

/-! ### Writers and readers -/

/-- **A writer and a reader lose nothing.** The reader reads a value from exactly the JSON that has
its form, it reads back the values that are in range, and whatever it reads from any JSON, it reads
again from what is written for it. -/
structure IsLossless (write : α → Json) (read : Json → Option α) (InRange : α → Prop)
    (HasForm : α → Json → Prop) : Prop where
  reads : ∀ value json, read json = some value ↔ HasForm value json
  readsBack : ∀ value, InRange value → read (write value) = some value
  settles : ∀ json value, read json = some value → read (write value) = some value

/-- **What is written in its form is read back.** -/
theorem IsLossless.of_form {write : α → Json} {read : Json → Option α} {InRange : α → Prop}
    {HasForm : α → Json → Prop} (hreads : ∀ value json, read json = some value ↔ HasForm value json)
    (hwrite : ∀ value, InRange value → HasForm value (write value))
    (hrange : ∀ value json, HasForm value json → InRange value) :
    IsLossless write read InRange HasForm where
  reads := hreads
  readsBack value h := (hreads value _).mpr (hwrite value h)
  settles json value h :=
    (hreads value _).mpr (hwrite value (hrange value json ((hreads value json).mp h)))

end Json

end ProtoClient
