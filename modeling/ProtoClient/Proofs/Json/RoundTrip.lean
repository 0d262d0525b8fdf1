import ProtoClient.Proofs.Json.Form

/-!
# Schemas survive their JSON

A declaration is read from exactly the JSON that has its form: an object with its parts in any order
and among any further members, in which what is absent may be left out or null. The JSON that is
written for it has this form, as far as its numbers are those of machine words, so it is read back;
and whatever has been read has such numbers.

## Main definitions

* `HasForm` of `File`, `Message`, `Field`, `EnumType`, `EnumValue`, `Service`, `Method`, `Binding`,
  `Verb`, `FieldType`, `Scalar` and `Label`: the JSON of a declaration
* `InRange` of `File`, `Message`, `Field`, `EnumType` and `EnumValue`: the numbers in a declaration
  are those of machine words

## Main results

* `ofJson?_eq_some_iff`, for each of these types: a declaration is read from the JSON of its form
* `hasForm_toJson`: what is written for a declaration has its form
* `isLossless_toJson`: declarations survive being written and read
-/

namespace ProtoClient

open Json (Has MayHave IsRecordOf IsText IsBool IsInteger IsNatural IsList IsCase IsLossless list?
  string?_eq_some_iff bool?_eq_some_iff int32?_eq_some_iff optionalString?_eq_some_iff
  optionalNatural?_eq_some_iff list?_eq_some_iff)

variable {json : Json}

/-! ### Choices -/

/-- **The JSON of a label.** -/
def Label.HasForm (label : Label) (json : Json) : Prop :=
  IsCase label.name json

theorem Label.ofJson?_eq_some_iff {label : Label} :
    ofJson? json = some label ↔ label.HasForm json := by
  rw [HasForm, ← Json.bareCase?_eq_some_iff]
  constructor
  · intro h
    unfold ofJson? at h
    split at h <;> cases h <;> assumption
  · intro h
    rw [ofJson?, h]
    cases label <;> rfl

/-- **The JSON of a scalar type.** -/
def Scalar.HasForm (scalar : Scalar) (json : Json) : Prop :=
  IsCase scalar.name json

theorem Scalar.ofName?_eq_some_iff {name : String} {scalar : Scalar} :
    ofName? name = some scalar ↔ name = scalar.name := by
  constructor
  · intro h
    have hname := List.find?_some h
    simpa [eq_comm] using hname
  · rintro rfl
    cases scalar <;> rfl

theorem Scalar.ofJson?_eq_some_iff {scalar : Scalar} :
    ofJson? json = some scalar ↔ scalar.HasForm json := by
  simp only [ofJson?, HasForm, Option.bind_eq_some_iff, Json.bareCase?_eq_some_iff,
    ofName?_eq_some_iff, exists_eq_right]

/-- **The JSON of what a field holds.** -/
def FieldType.HasForm : FieldType → Json → Prop
  | .scalar type, json => ∃ value, json = .object [("Scalar", value)] ∧ type.HasForm value
  | .named name, json => json = .object [("Named", .string name)]

theorem FieldType.ofJson?_eq_some_iff {type : FieldType} :
    ofJson? json = some type ↔ type.HasForm json := by
  constructor
  · intro h
    unfold ofJson? at h
    split at h
    · next value hcase =>
      obtain ⟨scalar, hread, rfl⟩ := Option.map_eq_some_iff.mp h
      exact ⟨value, Json.case?_eq_some_some_iff.mp hcase, Scalar.ofJson?_eq_some_iff.mp hread⟩
    · next value hcase =>
      obtain ⟨name, hread, rfl⟩ := Option.map_eq_some_iff.mp h
      rw [HasForm, ← string?_eq_some_iff.mp hread]
      exact Json.case?_eq_some_some_iff.mp hcase
    · cases h
  · cases type with
    | scalar type =>
      rintro ⟨value, rfl, hform⟩
      exact congrArg (Option.map _) (Scalar.ofJson?_eq_some_iff.mpr hform)
    | named name =>
      rintro rfl
      rfl

/-- **The JSON of a verb.** -/
def Verb.HasForm : Verb → Json → Prop
  | .get, json => IsCase "Get" json
  | .put, json => IsCase "Put" json
  | .post, json => IsCase "Post" json
  | .delete, json => IsCase "Delete" json
  | .patch, json => IsCase "Patch" json
  | .custom kind, json => json = .object [("Custom", .string kind)]

theorem Verb.ofJson?_eq_some_iff {verb : Verb} : ofJson? json = some verb ↔ verb.HasForm json := by
  constructor
  · intro h
    unfold ofJson? at h
    split at h
    · next value hcase =>
      obtain ⟨kind, hread, rfl⟩ := Option.map_eq_some_iff.mp h
      rw [HasForm, ← string?_eq_some_iff.mp hread]
      exact Json.case?_eq_some_some_iff.mp hcase
    · split at h <;> cases h <;> exact Json.bareCase?_eq_some_iff.mp ‹_›
  · cases verb with
    | custom kind =>
      rintro rfl
      rfl
    | _ => rintro (rfl | rfl) <;> rfl

/-! ### Fields -/

/-- **The JSON of a field.** -/
def Field.HasForm (field : Field) : Json → Prop :=
  IsRecordOf [("name", Has IsText field.name), ("number", Has IsInteger field.number),
    ("json_name", MayHave IsText field.jsonName), ("label", Has Label.HasForm field.label),
    ("field_type", Has FieldType.HasForm field.type),
    ("oneof_index", MayHave IsNatural field.choice),
    ("proto3_optional", Has IsBool field.explicitPresence)]

/-- The numbers of a field are those of machine words. -/
structure Field.InRange (field : Field) : Prop where
  number : IsInt32 field.number
  choice : ∀ choice ∈ field.choice, choice < 2 ^ 64

theorem Field.ofJson?_eq_some_iff {field : Field} :
    ofJson? json = some field ↔ field.HasForm json := by
  simp only [HasForm, Json.isRecordOf_iff, Json.exists_forall₂_cons, Json.exists_forall₂_nil,
    Json.exists_has, List.map_cons, List.map_nil]
  constructor
  · intro h
    unfold ofJson? at h
    split at h
    · next hmembers =>
      simp only [Option.bind_eq_bind, Option.bind_eq_some_iff, Option.pure_def,
        Option.some.injEq] at h
      obtain ⟨name, hname, number, hnumber, jsonName, hjsonName, label, hlabel, type, htype, choice,
        hchoice, presence, hpresence, rfl⟩ := h
      exact ⟨_, string?_eq_some_iff.mp hname, _, int32?_eq_some_iff.mp hnumber,
        _, optionalString?_eq_some_iff.mp hjsonName,
        _, Label.ofJson?_eq_some_iff.mp hlabel, _, FieldType.ofJson?_eq_some_iff.mp htype,
        _, optionalNatural?_eq_some_iff.mp hchoice,
        _, bool?_eq_some_iff.mp hpresence, hmembers⟩
    · cases h
  · rintro ⟨_, hname, _, hnumber, _, hjsonName, _, hlabel, _, htype, _, hchoice, _, hpresence,
      hmembers⟩
    simp [ofJson?, hmembers, string?_eq_some_iff.mpr hname, int32?_eq_some_iff.mpr hnumber,
      optionalString?_eq_some_iff.mpr hjsonName,
      Label.ofJson?_eq_some_iff.mpr hlabel, FieldType.ofJson?_eq_some_iff.mpr htype,
      optionalNatural?_eq_some_iff.mpr hchoice,
      bool?_eq_some_iff.mpr hpresence]

theorem Field.hasForm_toJson {field : Field} (h : field.InRange) : field.HasForm field.toJson := by
  have hjsonName : MayHave IsText field.jsonName (some (Json.ofOption .string field.jsonName)) :=
    Json.mayHave_ofOption fun _ _ => rfl
  have hlabel : field.label.HasForm field.label.toJson :=
    Label.ofJson?_eq_some_iff.mp field.label.ofJson?_toJson
  have htype : field.type.HasForm field.type.toJson :=
    FieldType.ofJson?_eq_some_iff.mp field.type.ofJson?_toJson
  have hchoice : MayHave IsNatural field.choice
      (some (Json.ofOption (fun index : Nat => .whole index) field.choice)) :=
    Json.mayHave_ofOption fun choice hmem => ⟨rfl, h.choice choice hmem⟩
  exact .object (by simp [List.lookup, IsInteger, h.number, hjsonName, hlabel, htype, hchoice])

theorem Field.inRange_of_hasForm {field : Field} (h : field.HasForm json) : field.InRange := by
  have hnumber : ∃ part, Has IsInteger field.number part := h.exists_part "number" (by simp)
  have hchoice : ∃ part, MayHave IsNatural field.choice part :=
    h.exists_part "oneof_index" (by simp)
  obtain ⟨_, _, -, -, hnumber⟩ := hnumber
  obtain ⟨_, hchoice⟩ := hchoice
  refine ⟨hnumber, fun choice hmem => ?_⟩
  obtain ⟨_, -, hsmall⟩ := hchoice.exists_of_mem hmem
  exact hsmall

/-! ### Enums -/

/-- **The JSON of an enum value.** -/
def EnumValue.HasForm (value : EnumValue) : Json → Prop :=
  IsRecordOf [("name", Has IsText value.name), ("number", Has IsInteger value.number)]

/-- The number of an enum value is that of a machine word. -/
def EnumValue.InRange (value : EnumValue) : Prop :=
  IsInt32 value.number

theorem EnumValue.ofJson?_eq_some_iff {value : EnumValue} :
    ofJson? json = some value ↔ value.HasForm json := by
  simp only [HasForm, Json.isRecordOf_iff, Json.exists_forall₂_cons, Json.exists_forall₂_nil,
    Json.exists_has, List.map_cons, List.map_nil]
  constructor
  · intro h
    unfold ofJson? at h
    split at h
    · next hmembers =>
      simp only [Option.bind_eq_bind, Option.bind_eq_some_iff, Option.pure_def,
        Option.some.injEq] at h
      obtain ⟨name, hname, number, hnumber, rfl⟩ := h
      exact ⟨_, string?_eq_some_iff.mp hname, _, int32?_eq_some_iff.mp hnumber, hmembers⟩
    · cases h
  · rintro ⟨_, hname, _, hnumber, hmembers⟩
    simp [ofJson?, hmembers, string?_eq_some_iff.mpr hname, int32?_eq_some_iff.mpr hnumber]

theorem EnumValue.hasForm_toJson {value : EnumValue} (h : value.InRange) :
    value.HasForm value.toJson := by
  have hnumber : IsInteger value.number (.whole value.number) := ⟨rfl, h⟩
  exact .object (by simp [List.lookup, hnumber])

theorem EnumValue.inRange_of_hasForm {value : EnumValue} (h : value.HasForm json) :
    value.InRange := by
  have hnumber : ∃ part, Has IsInteger value.number part := h.exists_part "number" (by simp)
  obtain ⟨_, _, -, -, hnumber⟩ := hnumber
  exact hnumber

/-- **The JSON of an enum.** -/
def EnumType.HasForm (enum : EnumType) : Json → Prop :=
  IsRecordOf [("name", Has IsText enum.name),
    ("values", Has (IsList EnumValue.HasForm) enum.values)]

/-- The numbers of an enum are those of machine words. -/
def EnumType.InRange (enum : EnumType) : Prop :=
  ∀ value ∈ enum.values, value.InRange

theorem EnumType.ofJson?_eq_some_iff {enum : EnumType} :
    ofJson? json = some enum ↔ enum.HasForm json := by
  simp only [HasForm, Json.isRecordOf_iff, Json.exists_forall₂_cons, Json.exists_forall₂_nil,
    Json.exists_has, List.map_cons, List.map_nil]
  constructor
  · intro h
    unfold ofJson? at h
    split at h
    · next hmembers =>
      simp only [Option.bind_eq_bind, Option.bind_eq_some_iff, Option.pure_def,
        Option.some.injEq] at h
      obtain ⟨name, hname, values, hvalues, rfl⟩ := h
      exact ⟨_, string?_eq_some_iff.mp hname,
        _, (list?_eq_some_iff fun _ _ _ => EnumValue.ofJson?_eq_some_iff).mp hvalues, hmembers⟩
    · cases h
  · rintro ⟨_, hname, _, hvalues, hmembers⟩
    simp [ofJson?, hmembers, string?_eq_some_iff.mpr hname,
      (list?_eq_some_iff fun _ _ _ => EnumValue.ofJson?_eq_some_iff).mpr hvalues]

theorem EnumType.hasForm_toJson {enum : EnumType} (h : enum.InRange) :
    enum.HasForm enum.toJson := by
  have hvalues : IsList EnumValue.HasForm enum.values
      (.array (enum.values.map EnumValue.toJson)) :=
    Json.isList_map fun value hmem => EnumValue.hasForm_toJson (h value hmem)
  exact .object (by simp [List.lookup, hvalues])

theorem EnumType.inRange_of_hasForm {enum : EnumType} (h : enum.HasForm json) :
    enum.InRange := by
  have hvalues : ∃ part, Has (IsList EnumValue.HasForm) enum.values part :=
    h.exists_part "values" (by simp)
  obtain ⟨_, _, -, hvalues⟩ := hvalues
  intro value hmem
  obtain ⟨_, hform⟩ := hvalues.exists_of_mem hmem
  exact EnumValue.inRange_of_hasForm hform

/-! ### Messages -/

mutual

/-- **The JSON of a message.** -/
def Message.HasForm : Message → Json → Prop
  | ⟨name, fields, nested, enums, choices, isEntry⟩ =>
    IsRecordOf [("name", Has IsText name), ("fields", Has (IsList Field.HasForm) fields),
      ("nested_messages", fun part => ∃ items, part = some (.array items) ∧
        Message.HaveForms nested items),
      ("nested_enums", Has (IsList EnumType.HasForm) enums),
      ("oneofs", Has (IsList IsText) choices), ("map_entry", Has IsBool isEntry)]

/-- The JSON of messages, one for each. -/
def Message.HaveForms : List Message → List Json → Prop
  | [], [] => True
  | message :: rest, item :: items => message.HasForm item ∧ Message.HaveForms rest items
  | _, _ => False

end

theorem Message.haveForms_iff {messages : List Message} {items : List Json} :
    HaveForms messages items ↔ List.Forall₂ HasForm messages items := by
  induction messages generalizing items with
  | nil => cases items <;> simp [HaveForms]
  | cons message rest ih => cases items <;> simp [HaveForms, ih]

theorem Message.hasForm_iff {message : Message} :
    message.HasForm json ↔ IsRecordOf [("name", Has IsText message.name),
      ("fields", Has (IsList Field.HasForm) message.fields),
      ("nested_messages", Has (IsList Message.HasForm) message.nested),
      ("nested_enums", Has (IsList EnumType.HasForm) message.enums),
      ("oneofs", Has (IsList IsText) message.choices),
      ("map_entry", Has IsBool message.isEntry)] json := by
  obtain ⟨name, fields, nested, enums, choices, isEntry⟩ := message
  have hnested : (fun part => ∃ items, part = some (.array items) ∧ HaveForms nested items) =
      Has (IsList Message.HasForm) nested := by
    funext part
    simp [Has, IsList, haveForms_iff]
  rw [HasForm, hnested]

/-- The numbers in a message, at any depth, are those of machine words. -/
inductive Message.InRange : Message → Prop
  | mk {message : Message} (fields : ∀ field ∈ message.fields, field.InRange)
    (nested : ∀ inner ∈ message.nested, inner.InRange)
    (enums : ∀ enum ∈ message.enums, enum.InRange) : message.InRange

theorem Message.ofJson?_eq_some_iff {message : Message} :
    ofJson? json = some message ↔ message.HasForm json := by
  induction message using Message.induction generalizing json with
  | step message ih =>
    obtain ⟨name, fields, nested, enums, choices, isEntry⟩ := message
    -- the induction hypothesis is about the nested messages alone, so it is lifted to their list
    have hread (items : List Json) :
        items.mapM ofJson? = some nested ↔ List.Forall₂ HasForm nested items :=
      Json.mapM_eq_some_iff_forall₂ fun inner hmem _ => ih inner hmem
    simp only [hasForm_iff, Json.isRecordOf_iff, Json.exists_forall₂_cons, Json.exists_forall₂_nil,
      Json.exists_has, List.map_cons, List.map_nil]
    constructor
    · intro h
      unfold ofJson? at h
      split at h
      · next hmembers =>
        simp only [Option.bind_eq_bind, Option.bind_eq_some_iff, Option.pure_def,
          Option.some.injEq, List.mapM_subtype, List.unattach_attach] at h
        obtain ⟨_, hname, _, hfields, _, hnested, _, henums, _, hchoices, _, hisEntry, h⟩ := h
        cases h
        exact ⟨_, string?_eq_some_iff.mp hname,
          _, (list?_eq_some_iff fun _ _ _ => Field.ofJson?_eq_some_iff).mp hfields,
          _, ⟨_, rfl, (hread _).mp hnested⟩,
          _, (list?_eq_some_iff fun _ _ _ => EnumType.ofJson?_eq_some_iff).mp henums,
          _, (list?_eq_some_iff fun _ _ _ => string?_eq_some_iff).mp hchoices,
          _, bool?_eq_some_iff.mp hisEntry, hmembers⟩
      · cases h
    · rintro ⟨_, hname, _, hfields, _, ⟨items, rfl, hnested⟩, _, henums, _, hchoices, _, hisEntry,
        hmembers⟩
      unfold ofJson?
      split
      · next hmembers' =>
        cases hmembers.symm.trans hmembers'
        simp [string?_eq_some_iff.mpr hname, (hread items).mpr hnested,
          (list?_eq_some_iff fun _ _ _ => Field.ofJson?_eq_some_iff).mpr hfields,
          (list?_eq_some_iff fun _ _ _ => EnumType.ofJson?_eq_some_iff).mpr henums,
          (list?_eq_some_iff fun _ _ _ => string?_eq_some_iff).mpr hchoices,
          bool?_eq_some_iff.mpr hisEntry]
      · next hother => exact absurd hmembers (hother _ _ _ _ _ _)

theorem Message.listToJson_eq_map (messages : List Message) :
    listToJson messages = messages.map toJson := by
  induction messages with
  | nil => rfl
  | cons message rest ih => rw [listToJson, ih, List.map_cons]

theorem Message.hasForm_toJson {message : Message} (h : message.InRange) :
    message.HasForm message.toJson := by
  induction message using Message.induction with
  | step message ih =>
    obtain ⟨name, fields, nested, enums, choices, isEntry⟩ := message
    obtain ⟨hfieldsRange, hnestedRange, henumsRange⟩ := h
    have hfields : IsList Field.HasForm fields (.array (fields.map Field.toJson)) :=
      Json.isList_map fun field hmem => Field.hasForm_toJson (hfieldsRange field hmem)
    have hnested : IsList HasForm nested (.array (nested.map toJson)) :=
      Json.isList_map fun inner hmem => ih inner hmem (hnestedRange inner hmem)
    have henums : IsList EnumType.HasForm enums (.array (enums.map EnumType.toJson)) :=
      Json.isList_map fun enum hmem => EnumType.hasForm_toJson (henumsRange enum hmem)
    have hchoices : IsList IsText choices (.array (choices.map .string)) :=
      Json.isList_map fun _ _ => rfl
    rw [hasForm_iff, toJson, listToJson_eq_map]
    exact .object (by simp [List.lookup, hfields, hnested, henums, hchoices])

theorem Message.inRange_of_hasForm {message : Message} (h : message.HasForm json) :
    message.InRange := by
  induction message using Message.induction generalizing json with
  | step message ih =>
    rw [hasForm_iff] at h
    have hfields : ∃ part, Has (IsList Field.HasForm) message.fields part :=
      h.exists_part "fields" (by simp)
    have hnested : ∃ part, Has (IsList HasForm) message.nested part :=
      h.exists_part "nested_messages" (by simp)
    have henums : ∃ part, Has (IsList EnumType.HasForm) message.enums part :=
      h.exists_part "nested_enums" (by simp)
    obtain ⟨_, _, -, hfields⟩ := hfields
    obtain ⟨_, _, -, hnested⟩ := hnested
    obtain ⟨_, _, -, henums⟩ := henums
    refine ⟨fun field hmem => ?_, fun inner hmem => ?_, fun enum hmem => ?_⟩
    · obtain ⟨_, hform⟩ := hfields.exists_of_mem hmem
      exact Field.inRange_of_hasForm hform
    · obtain ⟨_, hform⟩ := hnested.exists_of_mem hmem
      exact ih inner hmem hform
    · obtain ⟨_, hform⟩ := henums.exists_of_mem hmem
      exact EnumType.inRange_of_hasForm hform

/-! ### Services -/

/-- **The JSON of an HTTP rule.** -/
def Binding.HasForm (binding : Binding) : Json → Prop :=
  IsRecordOf [("verb", Has Verb.HasForm binding.verb), ("path", Has IsText binding.path),
    ("body", MayHave IsText binding.body)]

theorem Binding.ofJson?_eq_some_iff {binding : Binding} :
    ofJson? json = some binding ↔ binding.HasForm json := by
  simp only [HasForm, Json.isRecordOf_iff, Json.exists_forall₂_cons, Json.exists_forall₂_nil,
    Json.exists_has, List.map_cons, List.map_nil]
  constructor
  · intro h
    unfold ofJson? at h
    split at h
    · next hmembers =>
      simp only [Option.bind_eq_bind, Option.bind_eq_some_iff, Option.pure_def,
        Option.some.injEq] at h
      obtain ⟨verb, hverb, path, hpath, body, hbody, rfl⟩ := h
      exact ⟨_, Verb.ofJson?_eq_some_iff.mp hverb, _, string?_eq_some_iff.mp hpath,
        _, optionalString?_eq_some_iff.mp hbody, hmembers⟩
    · cases h
  · rintro ⟨_, hverb, _, hpath, _, hbody, hmembers⟩
    simp [ofJson?, hmembers, Verb.ofJson?_eq_some_iff.mpr hverb, string?_eq_some_iff.mpr hpath,
      optionalString?_eq_some_iff.mpr hbody]

theorem Binding.hasForm_toJson (binding : Binding) : binding.HasForm binding.toJson := by
  have hverb : binding.verb.HasForm binding.verb.toJson :=
    Verb.ofJson?_eq_some_iff.mp binding.verb.ofJson?_toJson
  have hbody : MayHave IsText binding.body (some (Json.ofOption .string binding.body)) :=
    Json.mayHave_ofOption fun _ _ => rfl
  exact .object (by simp [List.lookup, hverb, hbody])

/-- **The JSON of a method.** -/
def Method.HasForm (method : Method) : Json → Prop :=
  IsRecordOf [("name", Has IsText method.name), ("input_type", Has IsText method.input),
    ("output_type", Has IsText method.output),
    ("client_streaming", Has IsBool method.clientStreaming),
    ("server_streaming", Has IsBool method.serverStreaming),
    ("http", MayHave Binding.HasForm method.binding)]

theorem Method.ofJson?_eq_some_iff {method : Method} :
    ofJson? json = some method ↔ method.HasForm json := by
  have hread {binding : Option Binding} {part : Option Json} :
      Json.optional? Binding.ofJson? part = some binding ↔
        MayHave Binding.HasForm binding part :=
    Json.optional?_eq_some_iff rfl fun _ _ => Binding.ofJson?_eq_some_iff
  simp only [HasForm, Json.isRecordOf_iff, Json.exists_forall₂_cons, Json.exists_forall₂_nil,
    Json.exists_has, List.map_cons, List.map_nil]
  constructor
  · intro h
    unfold ofJson? at h
    split at h
    · next hmembers =>
      simp only [Option.bind_eq_bind, Option.bind_eq_some_iff, Option.pure_def,
        Option.some.injEq] at h
      obtain ⟨name, hname, input, hinput, output, houtput, client, hclient, server, hserver,
        binding, hbinding, rfl⟩ := h
      exact ⟨_, string?_eq_some_iff.mp hname, _, string?_eq_some_iff.mp hinput,
        _, string?_eq_some_iff.mp houtput, _, bool?_eq_some_iff.mp hclient,
        _, bool?_eq_some_iff.mp hserver, _, hread.mp hbinding, hmembers⟩
    · cases h
  · rintro ⟨_, hname, _, hinput, _, houtput, _, hclient, _, hserver, _, hbinding, hmembers⟩
    simp [ofJson?, hmembers, string?_eq_some_iff.mpr hname, string?_eq_some_iff.mpr hinput,
      string?_eq_some_iff.mpr houtput, bool?_eq_some_iff.mpr hclient,
      bool?_eq_some_iff.mpr hserver, hread.mpr hbinding]

theorem Method.hasForm_toJson (method : Method) : method.HasForm method.toJson := by
  have hbinding : MayHave Binding.HasForm method.binding
      (some (Json.ofOption Binding.toJson method.binding)) :=
    Json.mayHave_ofOption fun binding _ => binding.hasForm_toJson
  exact .object (by simp [List.lookup, hbinding])

/-- **The JSON of a service.** -/
def Service.HasForm (service : Service) : Json → Prop :=
  IsRecordOf [("name", Has IsText service.name),
    ("methods", Has (IsList Method.HasForm) service.methods)]

theorem Service.ofJson?_eq_some_iff {service : Service} :
    ofJson? json = some service ↔ service.HasForm json := by
  simp only [HasForm, Json.isRecordOf_iff, Json.exists_forall₂_cons, Json.exists_forall₂_nil,
    Json.exists_has, List.map_cons, List.map_nil]
  constructor
  · intro h
    unfold ofJson? at h
    split at h
    · next hmembers =>
      simp only [Option.bind_eq_bind, Option.bind_eq_some_iff, Option.pure_def,
        Option.some.injEq] at h
      obtain ⟨name, hname, methods, hmethods, rfl⟩ := h
      exact ⟨_, string?_eq_some_iff.mp hname,
        _, (list?_eq_some_iff fun _ _ _ => Method.ofJson?_eq_some_iff).mp hmethods, hmembers⟩
    · cases h
  · rintro ⟨_, hname, _, hmethods, hmembers⟩
    simp [ofJson?, hmembers, string?_eq_some_iff.mpr hname,
      (list?_eq_some_iff fun _ _ _ => Method.ofJson?_eq_some_iff).mpr hmethods]

theorem Service.hasForm_toJson (service : Service) : service.HasForm service.toJson := by
  have hmethods : IsList Method.HasForm service.methods
      (.array (service.methods.map Method.toJson)) :=
    Json.isList_map fun method _ => method.hasForm_toJson
  exact .object (by simp [List.lookup, hmethods])

/-! ### Files -/

/-- **The JSON of a file.** -/
def File.HasForm (file : File) : Json → Prop :=
  IsRecordOf [("name", Has IsText file.name), ("package", Has IsText file.package),
    ("dependencies", Has (IsList IsText) file.dependencies),
    ("messages", Has (IsList Message.HasForm) file.messages),
    ("enums", Has (IsList EnumType.HasForm) file.enums),
    ("services", Has (IsList Service.HasForm) file.services)]

/-- The numbers in a file are those of machine words. -/
structure File.InRange (file : File) : Prop where
  messages : ∀ message ∈ file.messages, message.InRange
  enums : ∀ enum ∈ file.enums, enum.InRange

theorem File.ofJson?_eq_some_iff {file : File} :
    ofJson? json = some file ↔ file.HasForm json := by
  simp only [HasForm, Json.isRecordOf_iff, Json.exists_forall₂_cons, Json.exists_forall₂_nil,
    Json.exists_has, List.map_cons, List.map_nil]
  constructor
  · intro h
    unfold ofJson? at h
    split at h
    · next hmembers =>
      simp only [Option.bind_eq_bind, Option.bind_eq_some_iff, Option.pure_def,
        Option.some.injEq] at h
      obtain ⟨name, hname, package, hpackage, dependencies, hdependencies, messages, hmessages,
        enums, henums, services, hservices, rfl⟩ := h
      exact ⟨_, string?_eq_some_iff.mp hname, _, string?_eq_some_iff.mp hpackage,
        _, (list?_eq_some_iff fun _ _ _ => string?_eq_some_iff).mp hdependencies,
        _, (list?_eq_some_iff fun _ _ _ => Message.ofJson?_eq_some_iff).mp hmessages,
        _, (list?_eq_some_iff fun _ _ _ => EnumType.ofJson?_eq_some_iff).mp henums,
        _, (list?_eq_some_iff fun _ _ _ => Service.ofJson?_eq_some_iff).mp hservices, hmembers⟩
    · cases h
  · rintro ⟨_, hname, _, hpackage, _, hdependencies, _, hmessages, _, henums, _, hservices,
      hmembers⟩
    simp [ofJson?, hmembers, string?_eq_some_iff.mpr hname, string?_eq_some_iff.mpr hpackage,
      (list?_eq_some_iff fun _ _ _ => string?_eq_some_iff).mpr hdependencies,
      (list?_eq_some_iff fun _ _ _ => Message.ofJson?_eq_some_iff).mpr hmessages,
      (list?_eq_some_iff fun _ _ _ => EnumType.ofJson?_eq_some_iff).mpr henums,
      (list?_eq_some_iff fun _ _ _ => Service.ofJson?_eq_some_iff).mpr hservices]

theorem File.hasForm_toJson {file : File} (h : file.InRange) : file.HasForm file.toJson := by
  have hdependencies : IsList IsText file.dependencies (.array (file.dependencies.map .string)) :=
    Json.isList_map fun _ _ => rfl
  have hmessages : IsList Message.HasForm file.messages
      (.array (file.messages.map Message.toJson)) :=
    Json.isList_map fun message hmem => Message.hasForm_toJson (h.messages message hmem)
  have henums : IsList EnumType.HasForm file.enums (.array (file.enums.map EnumType.toJson)) :=
    Json.isList_map fun enum hmem => EnumType.hasForm_toJson (h.enums enum hmem)
  have hservices : IsList Service.HasForm file.services
      (.array (file.services.map Service.toJson)) :=
    Json.isList_map fun service _ => service.hasForm_toJson
  exact .object (by simp [List.lookup, hdependencies, hmessages, henums, hservices])

theorem File.inRange_of_hasForm {file : File} (h : file.HasForm json) : file.InRange := by
  have hmessages : ∃ part, Has (IsList Message.HasForm) file.messages part :=
    h.exists_part "messages" (by simp)
  have henums : ∃ part, Has (IsList EnumType.HasForm) file.enums part :=
    h.exists_part "enums" (by simp)
  obtain ⟨_, _, -, hmessages⟩ := hmessages
  obtain ⟨_, _, -, henums⟩ := henums
  refine ⟨fun message hmem => ?_, fun enum hmem => ?_⟩
  · obtain ⟨_, hform⟩ := hmessages.exists_of_mem hmem
    exact Message.inRange_of_hasForm hform
  · obtain ⟨_, hform⟩ := henums.exists_of_mem hmem
    exact EnumType.inRange_of_hasForm hform

/-! ### Being read back -/

/-- **Declarations survive being written and read.** A file, a message, a field, an enum, a service
and a method are read from exactly the JSON of their form; they are read back from what is written
for them, as far as their numbers are those of machine words; and whatever is read from any JSON is
read again, as it is, from what is written for it. -/
theorem isLossless_toJson :
    IsLossless File.toJson File.ofJson? File.InRange File.HasForm ∧
    IsLossless Message.toJson Message.ofJson? Message.InRange Message.HasForm ∧
    IsLossless Field.toJson Field.ofJson? Field.InRange Field.HasForm ∧
    IsLossless EnumType.toJson EnumType.ofJson? EnumType.InRange EnumType.HasForm ∧
    IsLossless Service.toJson Service.ofJson? (fun _ => True) Service.HasForm ∧
    IsLossless Method.toJson Method.ofJson? (fun _ => True) Method.HasForm :=
  ⟨.of_form (fun _ _ => File.ofJson?_eq_some_iff) (fun _ => File.hasForm_toJson)
      fun _ _ => File.inRange_of_hasForm,
    .of_form (fun _ _ => Message.ofJson?_eq_some_iff) (fun _ => Message.hasForm_toJson)
      fun _ _ => Message.inRange_of_hasForm,
    .of_form (fun _ _ => Field.ofJson?_eq_some_iff) (fun _ => Field.hasForm_toJson)
      fun _ _ => Field.inRange_of_hasForm,
    .of_form (fun _ _ => EnumType.ofJson?_eq_some_iff) (fun _ => EnumType.hasForm_toJson)
      fun _ _ => EnumType.inRange_of_hasForm,
    .of_form (fun _ _ => Service.ofJson?_eq_some_iff) (fun service _ => service.hasForm_toJson)
      fun _ _ _ => trivial,
    .of_form (fun _ _ => Method.ofJson?_eq_some_iff) (fun method _ => method.hasForm_toJson)
      fun _ _ _ => trivial⟩

namespace Sample

/-- A file with a message in a message, a oneof and a verb of its own. -/
def letter : File where
  name := "post/letter.proto"
  package := "post"
  dependencies := []
  messages := [{
    name := "Letter"
    fields := [⟨"stamp", 1, none, .optional, .named ".post.Letter.Stamp", some 0, false⟩]
    nested := [⟨"Stamp", [⟨"cents", -1, some "price", .repeated, .scalar .int32, none, false⟩], [],
      [], [], false⟩]
    enums := []
    choices := ["paid_by"]
    isEntry := false }]
  enums := [⟨"Delivery", [⟨"SLOW", 0⟩]⟩]
  services := [⟨"Post", [⟨"Send", ".post.Letter", ".post.Letter", false, false,
    some ⟨.custom "SEND", "/v1/letters", none⟩⟩]⟩]

/-- The file as JSON in another order, with keys that are not known, and with what is absent left
out or null. -/
def letterJson : Json :=
  .object [
    ("services", .array [.object [("name", .string "Post"), ("methods", .array [.object [
      ("http", .object [("path", .string "/v1/letters"), ("more", .null),
        ("verb", .object [("Custom", .string "SEND")])]),
      ("name", .string "Send"), ("input_type", .string ".post.Letter"),
      ("output_type", .string ".post.Letter"), ("client_streaming", .bool false),
      ("server_streaming", .bool false)]])]]),
    ("enums", .array [.object [("values", .array [.object [("number", .whole 0),
      ("name", .string "SLOW")]]), ("name", .string "Delivery")]]),
    ("messages", .array [.object [("map_entry", .bool false), ("name", .string "Letter"),
      ("oneofs", .array [.string "paid_by"]), ("nested_enums", .array []),
      ("nested_messages", .array [.object [("name", .string "Stamp"), ("note", .array []),
        ("fields", .array [.object [("name", .string "cents"), ("number", .whole (-1)),
          ("json_name", .string "price"), ("label", .object [("Repeated", .null)]),
          ("field_type", .object [("Scalar", .string "Int32")]), ("oneof_index", .null),
          ("proto3_optional", .bool false)]]),
        ("nested_messages", .array []), ("nested_enums", .array []), ("oneofs", .array []),
        ("map_entry", .bool false)]]),
      ("fields", .array [.object [("proto3_optional", .bool false), ("oneof_index", .whole 0),
        ("name", .string "stamp"), ("number", .whole 1), ("label", .string "Optional"),
        ("field_type", .object [("Named", .string ".post.Letter.Stamp")])]])]]),
    ("comment", .string "not read"), ("dependencies", .array []), ("package", .string "post"),
    ("name", .string "post/letter.proto")]

theorem letter_hasForm : letter.HasForm letterJson := by
  simp [letter, letterJson, File.HasForm, Message.hasForm_iff, Field.HasForm, EnumType.HasForm,
    EnumValue.HasForm, Service.HasForm, Method.HasForm, Binding.HasForm, Verb.HasForm,
    FieldType.HasForm, Scalar.HasForm, Label.HasForm, Json.isRecordOf_object_iff, List.lookup,
    IsList, IsText, IsBool, IsInteger, IsInt32, IsNatural, IsCase, MayHave, Label.name, Scalar.name]

end Sample

/-- A file is read from JSON in another order and with further keys, and read back. -/
theorem isLossless_toJson_letter :
    File.ofJson? Sample.letterJson = some Sample.letter ∧ Sample.letter.InRange ∧
      File.ofJson? Sample.letter.toJson = some Sample.letter := by
  have hread := (isLossless_toJson.1.reads _ _).mpr Sample.letter_hasForm
  have hrange := File.inRange_of_hasForm Sample.letter_hasForm
  exact ⟨hread, hrange, isLossless_toJson.1.readsBack _ hrange⟩

end ProtoClient
