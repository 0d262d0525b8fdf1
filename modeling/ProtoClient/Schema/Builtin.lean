import ProtoClient.Schema.Basic

/-!
# Builtin types

The types of the JSON form of proto values for which the generated code declares nothing: the
scalars, and the well-known types, which have JSON forms of their own.

## Main definitions

* `Scalar.builtin scalar`: the TypeScript type of a scalar
* `builtin? name`: the TypeScript type of a well-known type
-/

namespace ProtoClient

/-- **The TypeScript type of a scalar.** Integers of 64 bits are strings in the JSON form, as a
number there has too few digits for them; bytes are strings in base 64. -/
def Scalar.builtin : Scalar → String
  | .double | .float | .int32 | .uint32 | .sint32 | .fixed32 | .sfixed32 => "number"
  | .int64 | .uint64 | .sint64 | .fixed64 | .sfixed64 => "string"
  | .bool => "boolean"
  | .string | .bytes => "string"

/-- The well-known types with their TypeScript types. -/
def wellKnownTypes : List (String × String) := [
  ("google.protobuf.Timestamp", "string"),
  ("google.protobuf.Duration", "string"),
  ("google.protobuf.FieldMask", "string"),
  ("google.protobuf.Struct", "\x7b[key: string]: unknown\x7d"),
  ("google.protobuf.Value", "unknown"),
  ("google.protobuf.ListValue", "unknown[]"),
  ("google.protobuf.NullValue", "null"),
  ("google.protobuf.Empty", "\x7b\x7d"),
  ("google.protobuf.Any", "\x7b\"@type\"?: string; [key: string]: unknown\x7d"),
  ("google.protobuf.DoubleValue", "number"),
  ("google.protobuf.FloatValue", "number"),
  ("google.protobuf.Int32Value", "number"),
  ("google.protobuf.UInt32Value", "number"),
  ("google.protobuf.Int64Value", "string"),
  ("google.protobuf.UInt64Value", "string"),
  ("google.protobuf.BoolValue", "boolean"),
  ("google.protobuf.StringValue", "string"),
  ("google.protobuf.BytesValue", "string")]

/-- **The TypeScript type of a well-known type**, whose name may have a dot in front. -/
def builtin? (name : String) : Option String :=
  wellKnownTypes.lookup (withoutDot name)

end ProtoClient
