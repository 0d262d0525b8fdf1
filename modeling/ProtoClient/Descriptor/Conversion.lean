import ProtoClient.Descriptor.Basic
import ProtoClient.Generation

/-!
# From descriptors to schemas

A descriptor becomes a schema when its fields are well formed: every field has a type of a known
number, a name for the type where that is a message or enum, a known label, and no negative
position of a oneof. Texts that are absent are empty, and of several HTTP rules the first counts.

## Main definitions

* `FieldFault`, `ConversionFault`: what is wrong with a field, and where it stands
* `ConversionFault.message`: the wording of a fault
* `GeneratorRequest.toRequest?`: the request of a run

## Main results

* `Scalar.ofNumber?_number`: scalar types have distinct numbers
-/

namespace ProtoClient

/-- **What is wrong with a field.** -/
inductive FieldFault
  | untyped (field : String)
  | unnamedType (field : String)
  | unknownType (field : String) (type : Int)
  | unknownLabel (field : String) (label : Int)
  | negativeChoice (field : String) (choice : Int)
  deriving DecidableEq, Repr

/-- The wording of what is wrong with a field. -/
def FieldFault.message : FieldFault → String
  | .untyped field => "field " ++ field ++ " has no type"
  | .unnamedType field => "field " ++ field ++ " references a type without a name"
  | .unknownType field type => "field " ++ field ++ " has unknown type " ++ toString type
  | .unknownLabel field label => "field " ++ field ++ " has unknown label " ++ toString label
  | .negativeChoice field choice =>
    "field " ++ field ++ " oneof index " ++ toString choice ++
      ": number too small to fit in target type"

/-- **A fault in a descriptor**: the file, the messages around the field from the outermost one
on, and what is wrong with the field. -/
structure ConversionFault where
  file : String
  messages : List String
  fault : FieldFault
  deriving DecidableEq, Repr

/-- The wording of a fault: where it stands, from the outside in, and what it is. -/
def ConversionFault.message (fault : ConversionFault) : String :=
  ": ".intercalate <| ["converting messages of " ++ fault.file] ++
    fault.messages.map ("in message " ++ ·) ++ [fault.fault.message]

/-- The number of a scalar type in a descriptor. -/
def Scalar.number : Scalar → Int
  | .double => 1
  | .float => 2
  | .int64 => 3
  | .uint64 => 4
  | .int32 => 5
  | .fixed64 => 6
  | .fixed32 => 7
  | .bool => 8
  | .string => 9
  | .bytes => 12
  | .uint32 => 13
  | .sfixed32 => 15
  | .sfixed64 => 16
  | .sint32 => 17
  | .sint64 => 18

/-- The scalar type of a number. -/
def Scalar.ofNumber? : Int → Option Scalar
  | 1 => some .double
  | 2 => some .float
  | 3 => some .int64
  | 4 => some .uint64
  | 5 => some .int32
  | 6 => some .fixed64
  | 7 => some .fixed32
  | 8 => some .bool
  | 9 => some .string
  | 12 => some .bytes
  | 13 => some .uint32
  | 15 => some .sfixed32
  | 16 => some .sfixed64
  | 17 => some .sint32
  | 18 => some .sint64
  | _ => none

/-- Scalar types have distinct numbers. -/
theorem Scalar.ofNumber?_number (scalar : Scalar) : ofNumber? scalar.number = some scalar := by
  cases scalar <;> rfl

namespace FieldDescriptor

/-- Whether a type number stands for a group, a message or an enum. -/
def isNamedType (type : Int) : Bool :=
  type = 10 || type = 11 || type = 14

/-- The type of a field. -/
def fieldType? (field : FieldDescriptor) : Except FieldFault FieldType :=
  let name := field.name.getD ""
  match field.type with
  | none => .error (.untyped name)
  | some type =>
    if isNamedType type then
      match field.typeName with
      | some typeName => .ok (.named typeName)
      | none => .error (.unnamedType name)
    else
      match Scalar.ofNumber? type with
      | some scalar => .ok (.scalar scalar)
      | none => .error (.unknownType name type)

/-- The label of a field; a field without one is optional. -/
def label? (field : FieldDescriptor) : Except FieldFault Label :=
  match field.label.getD 1 with
  | 1 => .ok .optional
  | 2 => .ok .required
  | 3 => .ok .repeated
  | label => .error (.unknownLabel (field.name.getD "") label)

/-- The position of the oneof of a field. -/
def choice? (field : FieldDescriptor) : Except FieldFault (Option Nat) :=
  match field.choice with
  | none => .ok none
  | some choice =>
    if choice < 0 then .error (.negativeChoice (field.name.getD "") choice)
    else .ok (some choice.toNat)

/-- **The field of a descriptor**, or what is wrong with it: the type comes before the label, and
that before the oneof. -/
def toField? (field : FieldDescriptor) : Except FieldFault Field := do
  let type ← field.fieldType?
  let label ← field.label?
  let choice ← field.choice?
  return {
    name := field.name.getD ""
    number := field.number.getD 0
    jsonName := field.jsonName
    label
    type
    choice
    explicitPresence := field.explicitPresence.getD false }

end FieldDescriptor

def EnumDescriptor.toEnumType (enum : EnumDescriptor) : EnumType :=
  ⟨enum.name.getD "", enum.values.map fun value => ⟨value.name.getD "", value.number.getD 0⟩⟩

/-- What is read in a message of the given name: a fault is found inside it. -/
def insideMessage {α : Type} (name : String) (read : Except (List String × FieldFault) α) :
    Except (List String × FieldFault) α :=
  read.mapError fun (messages, fault) => (name :: messages, fault)

mutual

/-- **The message of a descriptor**, or the first fault in it with the messages around it: its own
fields come before the messages nested in it. -/
def MessageDescriptor.toMessage? :
    MessageDescriptor → Except (List String × FieldFault) Message
  | ⟨name, fields, nested, enums, options, choices⟩ => do
    let name := name.getD ""
    let fields ← insideMessage name
      ((fields.mapM FieldDescriptor.toField?).mapError fun fault => ([], fault))
    let nested ← insideMessage name (MessageDescriptor.toMessages? nested)
    return {
      name
      fields
      nested
      enums := enums.map EnumDescriptor.toEnumType
      choices := choices.map (·.name.getD "")
      isEntry := (options.bind MessageOptions.isEntry).getD false }

/-- The messages of descriptors, or the first fault in them. -/
def MessageDescriptor.toMessages? :
    List MessageDescriptor → Except (List String × FieldFault) (List Message)
  | [] => .ok []
  | message :: rest => do
    let first ← message.toMessage?
    let others ← MessageDescriptor.toMessages? rest
    return first :: others

end

/-- The verb and the path of a pattern. -/
def HttpPattern.verbAndPath : HttpPattern → Verb × String
  | .get path => (.get, path)
  | .put path => (.put, path)
  | .post path => (.post, path)
  | .delete path => (.delete, path)
  | .patch path => (.patch, path)
  | .custom pattern => (.custom pattern.kind, pattern.path)

/-- The binding of a rule that has a pattern; the rules that it brings with it do not count. -/
def HttpRule.toBinding? (rule : HttpRule) : Option Binding :=
  rule.pattern.map fun pattern => {
    verb := pattern.verbAndPath.1
    path := pattern.verbAndPath.2
    body := if rule.body = "" then none else some rule.body }

def MethodDescriptor.toMethod (method : MethodDescriptor) : Method where
  name := method.name.getD ""
  input := method.input.getD ""
  output := method.output.getD ""
  clientStreaming := method.clientStreaming.getD false
  serverStreaming := method.serverStreaming.getD false
  binding := (method.options.bind MethodOptions.http).bind HttpRule.toBinding?

def ServiceDescriptor.toService (service : ServiceDescriptor) : Service :=
  ⟨service.name.getD "", service.methods.map MethodDescriptor.toMethod⟩

/-- **The file of a descriptor**, or the first fault in it. -/
def FileDescriptor.toFile? (file : FileDescriptor) : Except ConversionFault File := do
  let name := file.name.getD ""
  let messages ← (MessageDescriptor.toMessages? file.messages).mapError
    fun (messages, fault) => (⟨name, messages, fault⟩ : ConversionFault)
  return {
    name
    package := file.package.getD ""
    dependencies := file.dependencies
    messages
    enums := file.enums.map EnumDescriptor.toEnumType
    services := file.services.map ServiceDescriptor.toService }

/-- **The request of a run**, or the first fault in its files. -/
def GeneratorRequest.toRequest? (request : GeneratorRequest) :
    Except ConversionFault Request := do
  let files ← request.files.mapM FileDescriptor.toFile?
  return ⟨files, request.requested⟩

end ProtoClient
