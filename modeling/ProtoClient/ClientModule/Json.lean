import ProtoClient.ClientModule.Basic
import ProtoClient.Json.Basic

/-!
# Client modules as JSON

The JSON form of a client module, in which it can be looked at before it is written out: one
member per part, in a fixed order.

## Main definitions

* `ClientModule.toJson`, and `toJson` of its parts
-/

namespace ProtoClient

open Json (ofOption)

/-- An array of texts. -/
def Json.texts (texts : List String) : Json :=
  .array (texts.map .string)

def Reference.toJson (reference : Reference) : Json :=
  .object [("identifier", .string reference.identifier), ("file", .string reference.file)]

def TypeExpr.toJson : TypeExpr → Json
  | .builtin text => .object [("kind", .string "builtin"), ("ts_type", .string text)]
  | .object target => .object [("kind", .string "message"), ("type_ref", target.toJson)]
  | .enumeration target => .object [("kind", .string "enum"), ("type_ref", target.toJson)]
  | .map key value =>
    .object [("kind", .string "map"), ("key", key.toJson), ("value", value.toJson)]

def Property.toJson (property : Property) : Json :=
  .object [("proto_name", .string property.protoName), ("name", .string property.name),
    ("number", .whole property.number), ("field_type", property.type.toJson),
    ("repeated", .bool property.repeated), ("optional", .bool property.optional),
    ("oneof", ofOption .string property.choice)]

def Choice.toJson (choice : Choice) : Json :=
  .object [("name", .string choice.name), ("fields", .texts choice.properties)]

def ObjectType.toJson (object : ObjectType) : Json :=
  .object [("proto_name", .string object.protoName), ("identifier", .string object.identifier),
    ("fields", .array (object.properties.map Property.toJson)),
    ("oneofs", .array (object.choices.map Choice.toJson))]

def StringEnum.toJson (enum : StringEnum) : Json :=
  .object [("proto_name", .string enum.protoName), ("identifier", .string enum.identifier),
    ("values", .array (enum.values.map fun value =>
      .object [("name", .string value.name), ("number", .whole value.number)]))]

def PathParameter.toJson (parameter : PathParameter) : Json :=
  .object [("template", .string parameter.template), ("field_path", .texts parameter.path)]

def Call.toJson (call : Call) : Json :=
  .object [("verb", .string call.verb), ("path", .string call.path),
    ("body", ofOption .string call.body),
    ("path_params", .array (call.parameters.map PathParameter.toJson))]

def Operation.toJson (operation : Operation) : Json :=
  .object [("name", .string operation.name), ("request", operation.request.toJson),
    ("response", operation.response.toJson),
    ("client_streaming", .bool operation.clientStreaming),
    ("server_streaming", .bool operation.serverStreaming), ("http", operation.call.toJson)]

def Client.toJson (client : Client) : Json :=
  .object [("proto_name", .string client.protoName), ("identifier", .string client.identifier),
    ("methods", .array (client.operations.map Operation.toJson)),
    ("unbound_methods", .texts client.unbound)]

def Import.toJson (imported : Import) : Json :=
  .object [("proto_file", .string imported.file), ("output_file", .string imported.output),
    ("module_specifier", .string imported.specifier),
    ("identifiers", .texts imported.identifiers)]

/-- **The JSON form of a client module.** -/
def ClientModule.toJson (module : ClientModule) : Json :=
  .object [("name", .string module.name), ("package", .string module.package),
    ("ts_file_name", .string module.output),
    ("messages", .array (module.objects.map ObjectType.toJson)),
    ("enums", .array (module.enums.map StringEnum.toJson)),
    ("services", .array (module.clients.map Client.toJson)),
    ("imports", .array (module.imports.map Import.toJson)),
    ("fetch_module", ofOption .string module.fetch),
    ("enable_styling_check", .bool module.stylingCheck)]

end ProtoClient
