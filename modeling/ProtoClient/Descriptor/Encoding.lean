import ProtoClient.Descriptor.Decoding

/-!
# Encoding descriptors

The bytes of a request: the parts that are present, in the order of their tags. A text that is
part of a rule or a custom pattern is left out when it is empty.

## Main definitions

* `encodeText`, `encodeInt32`, `encodeFlag`, `encodeEmbedded`: single records
* `GeneratorRequest.encode request`: the bytes of a request
-/

namespace ProtoClient

open Text

/-- The key of a record. -/
def encodeKey (tag : Nat) (form : WireForm) : List UInt8 :=
  Varint.write (8 * tag + form.number)

/-- A record of delimited bytes. -/
def encodeEmbedded (tag : Nat) (bytes : List UInt8) : List UInt8 :=
  encodeKey tag .delimited ++ Varint.write bytes.length ++ bytes

/-- A record of a text. -/
def encodeText (tag : Nat) (text : String) : List UInt8 :=
  encodeEmbedded tag (utf8 text)

/-- A record of a natural number. -/
def encodeNatural (tag value : Nat) : List UInt8 :=
  encodeKey tag .varint ++ Varint.write value

/-- A record of a number with a sign, which is kept in 64 bits. -/
def encodeInt32 (tag : Nat) (value : Int) : List UInt8 :=
  encodeNatural tag (value % 0x10000000000000000).toNat

/-- A record of a truth value. -/
def encodeFlag (tag : Nat) (value : Bool) : List UInt8 :=
  encodeNatural tag value.toNat

/-- The record of a part that may be absent. -/
def encodeOption {α : Type} (encode : α → List UInt8) : Option α → List UInt8
  | some value => encode value
  | none => []

/-- The record of a text that is left out when it is empty. -/
def encodeNonempty (tag : Nat) (text : String) : List UInt8 :=
  if text = "" then [] else encodeText tag text

def FieldDescriptor.encode (field : FieldDescriptor) : List UInt8 :=
  encodeOption (encodeText 1) field.name ++
    encodeOption (encodeInt32 3) field.number ++
    encodeOption (encodeInt32 4) field.label ++
    encodeOption (encodeInt32 5) field.type ++
    encodeOption (encodeText 6) field.typeName ++
    encodeOption (encodeInt32 9) field.choice ++
    encodeOption (encodeText 10) field.jsonName ++
    encodeOption (encodeFlag 17) field.explicitPresence

def ChoiceDescriptor.encode (choice : ChoiceDescriptor) : List UInt8 :=
  encodeOption (encodeText 1) choice.name

def EnumValueDescriptor.encode (value : EnumValueDescriptor) : List UInt8 :=
  encodeOption (encodeText 1) value.name ++ encodeOption (encodeInt32 2) value.number

def EnumDescriptor.encode (enum : EnumDescriptor) : List UInt8 :=
  encodeOption (encodeText 1) enum.name ++
    enum.values.flatMap fun value => encodeEmbedded 2 value.encode

def MessageOptions.encode (options : MessageOptions) : List UInt8 :=
  encodeOption (encodeFlag 7) options.isEntry

mutual

def MessageDescriptor.encode : MessageDescriptor → List UInt8
  | ⟨name, fields, nested, enums, options, choices⟩ =>
    encodeOption (encodeText 1) name ++
      fields.flatMap (fun field => encodeEmbedded 2 field.encode) ++
      MessageDescriptor.encodeList nested ++
      enums.flatMap (fun enum => encodeEmbedded 4 enum.encode) ++
      encodeOption (fun options => encodeEmbedded 7 options.encode) options ++
      choices.flatMap fun choice => encodeEmbedded 8 choice.encode

/-- The records of the messages nested in a message. -/
def MessageDescriptor.encodeList : List MessageDescriptor → List UInt8
  | [] => []
  | message :: rest => encodeEmbedded 3 message.encode ++ MessageDescriptor.encodeList rest

end

def CustomPattern.encode (pattern : CustomPattern) : List UInt8 :=
  encodeNonempty 1 pattern.kind ++ encodeNonempty 2 pattern.path

/-- The tag of a pattern. -/
def HttpPattern.tag : HttpPattern → Nat
  | .get _ => 2
  | .put _ => 3
  | .post _ => 4
  | .delete _ => 5
  | .patch _ => 6
  | .custom _ => 8

def HttpPattern.encode (pattern : HttpPattern) : List UInt8 :=
  match pattern with
  | .get path | .put path | .post path | .delete path | .patch path => encodeText pattern.tag path
  | .custom inner => encodeEmbedded pattern.tag inner.encode

mutual

/-- The bytes of a rule: the body stands between the patterns of simple verbs and the custom
one. -/
def HttpRule.encode : HttpRule → List UInt8
  | ⟨pattern, body, additional⟩ =>
    let front :=
      match pattern with
      | some (.custom inner) => encodeNonempty 7 body ++ (HttpPattern.custom inner).encode
      | some simple => simple.encode ++ encodeNonempty 7 body
      | none => encodeNonempty 7 body
    front ++ HttpRule.encodeList additional

/-- The records of the rules that a rule brings with it. -/
def HttpRule.encodeList : List HttpRule → List UInt8
  | [] => []
  | rule :: rest => encodeEmbedded 11 rule.encode ++ HttpRule.encodeList rest

end

def MethodOptions.encode (options : MethodOptions) : List UInt8 :=
  encodeOption (fun http => encodeEmbedded httpTag http.encode) options.http

def MethodDescriptor.encode (method : MethodDescriptor) : List UInt8 :=
  encodeOption (encodeText 1) method.name ++
    encodeOption (encodeText 2) method.input ++
    encodeOption (encodeText 3) method.output ++
    encodeOption (fun options => encodeEmbedded 4 options.encode) method.options ++
    encodeOption (encodeFlag 5) method.clientStreaming ++
    encodeOption (encodeFlag 6) method.serverStreaming

def ServiceDescriptor.encode (service : ServiceDescriptor) : List UInt8 :=
  encodeOption (encodeText 1) service.name ++
    service.methods.flatMap fun method => encodeEmbedded 2 method.encode

def FileDescriptor.encode (file : FileDescriptor) : List UInt8 :=
  encodeOption (encodeText 1) file.name ++
    encodeOption (encodeText 2) file.package ++
    file.dependencies.flatMap (encodeText 3) ++
    file.messages.flatMap (fun message => encodeEmbedded 4 message.encode) ++
    file.enums.flatMap (fun enum => encodeEmbedded 5 enum.encode) ++
    file.services.flatMap fun service => encodeEmbedded 6 service.encode

/-- **The bytes of a request.** -/
def GeneratorRequest.encode (request : GeneratorRequest) : List UInt8 :=
  request.requested.flatMap (encodeText 1) ++
    encodeOption (encodeText 2) request.parameter ++
    request.files.flatMap fun file => encodeEmbedded 15 file.encode

end ProtoClient
