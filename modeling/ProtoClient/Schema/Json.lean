import ProtoClient.Schema.Basic
import ProtoClient.Json.Basic

/-!
# Schemas as JSON

Every declaration has a JSON form: a record with one member per part, in a fixed order, and a
choice written as its case. Reading is strict. Every member has to be there, except that absent
options may be left out or null; whole numbers stay within the range of their machine words;
further members of an object do not count.

## Main definitions

* `toJson` and `ofJson?` of `File`, `Message`, `Field`, `EnumType`, `EnumValue`, `Service`,
  `Method`, `Binding`, `Verb`, `FieldType`, `Scalar` and `Label`

## Main results

* `Label.ofJson?_toJson`, `FieldType.ofJson?_toJson`, `Verb.ofJson?_toJson`: a choice is read back
  from its case
-/

namespace ProtoClient

namespace Json

/-- An array each of whose items is read. -/
def list? {α : Type} (read : Json → Option α) (json : Json) : Option (List α) :=
  json.array?.bind (·.mapM read)

/-- An item of an array is smaller than the array. -/
theorem sizeOf_lt_array {item : Json} {items : List Json} (h : item ∈ items) :
    sizeOf item < sizeOf (Json.array items) := by
  have := List.sizeOf_lt_of_mem h
  simp only [array.sizeOf_spec]
  omega

/-- A member of a record is smaller than the record. -/
theorem sizeOf_lt_of_mem_members? {keys : List String} {json value : Json}
    {values : List (Option Json)} (h : json.members? keys = some values)
    (hmem : some value ∈ values) : sizeOf value < sizeOf json := by
  cases json with
  | object fields =>
    cases h
    obtain ⟨key, -, hfound⟩ := List.mem_map.mp hmem
    have hin : (key, value) ∈ fields := by
      clear hmem
      induction fields with
      | nil => simp at hfound
      | cons field rest ih =>
        rw [List.lookup_cons] at hfound
        split at hfound
        · next hsame =>
          have : field = (key, value) :=
            Prod.ext (beq_iff_eq.mp hsame).symm (Option.some.inj hfound)
          simp [this]
        · exact List.mem_cons_of_mem _ (ih hfound)
    have := List.sizeOf_lt_of_mem hin
    simp only [Prod.mk.sizeOf_spec, object.sizeOf_spec] at this ⊢
    omega
  | array items =>
    rw [members?] at h
    split at h
    · cases h
      have := List.sizeOf_lt_of_mem (by simpa using hmem : value ∈ items)
      simp only [array.sizeOf_spec]
      omega
    · simp at h
  | _ => simp [members?] at h

end Json

open Json (ofOption optional? list?)

/-- The name of a label. -/
def Label.name : Label → String
  | .optional => "Optional"
  | .required => "Required"
  | .repeated => "Repeated"

def Label.toJson (label : Label) : Json := .string label.name

def Label.ofJson? (json : Json) : Option Label :=
  match json.bareCase? with
  | some "Optional" => some .optional
  | some "Required" => some .required
  | some "Repeated" => some .repeated
  | _ => none

theorem Label.ofJson?_toJson (label : Label) : ofJson? label.toJson = some label := by
  cases label <;> rfl

/-- The name of a scalar type. -/
def Scalar.name : Scalar → String
  | .double => "Double"
  | .float => "Float"
  | .int64 => "Int64"
  | .uint64 => "Uint64"
  | .int32 => "Int32"
  | .fixed64 => "Fixed64"
  | .fixed32 => "Fixed32"
  | .bool => "Bool"
  | .string => "String"
  | .bytes => "Bytes"
  | .uint32 => "Uint32"
  | .sfixed32 => "Sfixed32"
  | .sfixed64 => "Sfixed64"
  | .sint32 => "Sint32"
  | .sint64 => "Sint64"

/-- All scalar types. -/
def Scalar.all : List Scalar :=
  [.double, .float, .int64, .uint64, .int32, .fixed64, .fixed32, .bool, .string, .bytes, .uint32,
    .sfixed32, .sfixed64, .sint32, .sint64]

/-- The scalar type of a name. -/
def Scalar.ofName? (name : String) : Option Scalar :=
  Scalar.all.find? (·.name = name)

def Scalar.toJson (scalar : Scalar) : Json := .string scalar.name

def Scalar.ofJson? (json : Json) : Option Scalar :=
  json.bareCase?.bind Scalar.ofName?

def FieldType.toJson : FieldType → Json
  | .scalar type => .object [("Scalar", type.toJson)]
  | .named name => .object [("Named", .string name)]

def FieldType.ofJson? (json : Json) : Option FieldType :=
  match json.case? with
  | some ("Scalar", some value) => (Scalar.ofJson? value).map .scalar
  | some ("Named", some value) => value.string?.map .named
  | _ => none

theorem FieldType.ofJson?_toJson (type : FieldType) : ofJson? type.toJson = some type := by
  cases type with
  | scalar type => cases type <;> rfl
  | named name => rfl

def Field.toJson (field : Field) : Json :=
  .object [("name", .string field.name), ("number", .whole field.number),
    ("json_name", ofOption .string field.jsonName), ("label", field.label.toJson),
    ("field_type", field.type.toJson),
    ("oneof_index", ofOption (fun index : Nat => .whole index) field.choice),
    ("proto3_optional", .bool field.explicitPresence)]

def Field.ofJson? (json : Json) : Option Field :=
  match json.members?
    ["name", "number", "json_name", "label", "field_type", "oneof_index", "proto3_optional"] with
  | some [some name, some number, jsonName, some label, some type, choice,
      some explicitPresence] => do
    return {
      name := ← name.string?
      number := ← number.int32?
      jsonName := ← optional? Json.string? jsonName
      label := ← Label.ofJson? label
      type := ← FieldType.ofJson? type
      choice := ← optional? Json.natural? choice
      explicitPresence := ← explicitPresence.bool? }
  | _ => none

def EnumValue.toJson (value : EnumValue) : Json :=
  .object [("name", .string value.name), ("number", .whole value.number)]

def EnumValue.ofJson? (json : Json) : Option EnumValue :=
  match json.members? ["name", "number"] with
  | some [some name, some number] => do
    return { name := ← name.string?, number := ← number.int32? }
  | _ => none

def EnumType.toJson (enum : EnumType) : Json :=
  .object [("name", .string enum.name), ("values", .array (enum.values.map EnumValue.toJson))]

def EnumType.ofJson? (json : Json) : Option EnumType :=
  match json.members? ["name", "values"] with
  | some [some name, some values] => do
    return { name := ← name.string?, values := ← list? EnumValue.ofJson? values }
  | _ => none

mutual

def Message.toJson : Message → Json
  | ⟨name, fields, nested, enums, choices, isEntry⟩ =>
    .object [("name", .string name), ("fields", .array (fields.map Field.toJson)),
      ("nested_messages", .array (Message.listToJson nested)),
      ("nested_enums", .array (enums.map EnumType.toJson)),
      ("oneofs", .array (choices.map .string)), ("map_entry", .bool isEntry)]

def Message.listToJson : List Message → List Json
  | [] => []
  | message :: rest => message.toJson :: Message.listToJson rest

end

def Message.ofJson? (json : Json) : Option Message :=
  match read : json.members?
    ["name", "fields", "nested_messages", "nested_enums", "oneofs", "map_entry"] with
  | some [some name, some fields, some (.array nested), some enums, some choices,
      some isEntry] => do
    return {
      name := ← name.string?
      fields := ← list? Field.ofJson? fields
      nested := ← nested.attach.mapM fun ⟨inner, member⟩ =>
        have : sizeOf inner < sizeOf json :=
          Nat.lt_trans (Json.sizeOf_lt_array member)
            (Json.sizeOf_lt_of_mem_members? read (by simp))
        Message.ofJson? inner
      enums := ← list? EnumType.ofJson? enums
      choices := ← list? Json.string? choices
      isEntry := ← isEntry.bool? }
  | _ => none
termination_by sizeOf json

def Verb.toJson : Verb → Json
  | .get => .string "Get"
  | .put => .string "Put"
  | .post => .string "Post"
  | .delete => .string "Delete"
  | .patch => .string "Patch"
  | .custom kind => .object [("Custom", .string kind)]

def Verb.ofJson? (json : Json) : Option Verb :=
  match json.case? with
  | some ("Custom", some value) => value.string?.map .custom
  | _ =>
    match json.bareCase? with
    | some "Get" => some .get
    | some "Put" => some .put
    | some "Post" => some .post
    | some "Delete" => some .delete
    | some "Patch" => some .patch
    | _ => none

theorem Verb.ofJson?_toJson (verb : Verb) : ofJson? verb.toJson = some verb := by
  cases verb <;> rfl

def Binding.toJson (binding : Binding) : Json :=
  .object [("verb", binding.verb.toJson), ("path", .string binding.path),
    ("body", ofOption .string binding.body)]

def Binding.ofJson? (json : Json) : Option Binding :=
  match json.members? ["verb", "path", "body"] with
  | some [some verb, some path, body] => do
    return {
      verb := ← Verb.ofJson? verb
      path := ← path.string?
      body := ← optional? Json.string? body }
  | _ => none

def Method.toJson (method : Method) : Json :=
  .object [("name", .string method.name), ("input_type", .string method.input),
    ("output_type", .string method.output), ("client_streaming", .bool method.clientStreaming),
    ("server_streaming", .bool method.serverStreaming),
    ("http", ofOption Binding.toJson method.binding)]

def Method.ofJson? (json : Json) : Option Method :=
  match json.members?
    ["name", "input_type", "output_type", "client_streaming", "server_streaming", "http"] with
  | some [some name, some input, some output, some clientStreaming, some serverStreaming,
      binding] => do
    return {
      name := ← name.string?
      input := ← input.string?
      output := ← output.string?
      clientStreaming := ← clientStreaming.bool?
      serverStreaming := ← serverStreaming.bool?
      binding := ← optional? Binding.ofJson? binding }
  | _ => none

def Service.toJson (service : Service) : Json :=
  .object [("name", .string service.name), ("methods", .array (service.methods.map Method.toJson))]

def Service.ofJson? (json : Json) : Option Service :=
  match json.members? ["name", "methods"] with
  | some [some name, some methods] => do
    return { name := ← name.string?, methods := ← list? Method.ofJson? methods }
  | _ => none

def File.toJson (file : File) : Json :=
  .object [("name", .string file.name), ("package", .string file.package),
    ("dependencies", .array (file.dependencies.map .string)),
    ("messages", .array (file.messages.map Message.toJson)),
    ("enums", .array (file.enums.map EnumType.toJson)),
    ("services", .array (file.services.map Service.toJson))]

def File.ofJson? (json : Json) : Option File :=
  match json.members? ["name", "package", "dependencies", "messages", "enums", "services"] with
  | some [some name, some package, some dependencies, some messages, some enums,
      some services] => do
    return {
      name := ← name.string?
      package := ← package.string?
      dependencies := ← list? Json.string? dependencies
      messages := ← list? Message.ofJson? messages
      enums := ← list? EnumType.ofJson? enums
      services := ← list? Service.ofJson? services }
  | _ => none

end ProtoClient
