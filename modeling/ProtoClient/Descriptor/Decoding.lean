import ProtoClient.Descriptor.Basic
import ProtoClient.Text.Utf8
import ProtoClient.Wire.Record

/-!
# Decoding descriptors

A descriptor is read from its records one after another: a record of a declared tag sets, extends
or merges its part, and a record of any other tag is passed over. Embedded messages are read
within a budget of levels: each takes one, and so does a record that is passed over.

## Main definitions

* `Record.text?`, `Record.int32?`, `Record.flag?`, `Record.embedded?`: payloads by their types
* `readInto`: a value that takes in the records of bytes, one by one
* `GeneratorRequest.decode? bytes`: the request that the bytes are

## Main results

* `readInto_nil`: no bytes change nothing
* `Record.skip?_eq_some_iff`: a record is passed over when the budget covers its height
-/

namespace ProtoClient

open Text

namespace Record

/-- The text of a record. -/
def text? (record : Record) : Option String :=
  match record.payload with
  | .delimited bytes => ofUtf8? bytes
  | _ => none

/-- The number of a record, taken from its lowest 32 bits with their sign. -/
def int32? (record : Record) : Option Int :=
  match record.payload with
  | .varint value => some ((value : Int).bmod 0x100000000)
  | _ => none

/-- The truth value of a record: everything but zero is true. -/
def flag? (record : Record) : Option Bool :=
  match record.payload with
  | .varint value => some (value != 0)
  | _ => none

/-- The message embedded in a record, read with one level less than the budget. -/
def embedded? {α : Type} (budget : Nat) (read : Nat → List UInt8 → Option α)
    (record : Record) : Option α :=
  match record.payload, budget with
  | .delimited bytes, budget + 1 => read budget bytes
  | _, _ => none

/-- The value unchanged, if the budget allows for the record to be passed over. -/
def skip? {α : Type} (budget : Nat) (value : α) (record : Record) : Option α :=
  if record.payload.height ≤ budget then some value else none

theorem skip?_eq_some_iff {α : Type} {budget : Nat} {value value' : α} {record : Record} :
    record.skip? budget value = some value' ↔
      record.payload.height ≤ budget ∧ value = value' := by
  simp [skip?]

end Record

/-- **A value that takes in the records of bytes**, one by one. -/
def readInto {α : Type} (merge : α → Record → Option α) (start : α) (bytes : List UInt8) :
    Option α :=
  (records? bytes).bind (·.foldlM merge start)

@[simp] theorem readInto_nil {α : Type} (merge : α → Record → Option α) (start : α) :
    readInto merge start [] = some start := by
  simp [readInto]

/-- The bytes of the one record of an embedded message, if the record is one. -/
def Record.bytes? (record : Record) : Option (List UInt8) :=
  match record.payload with
  | .delimited bytes => some bytes
  | _ => none

def FieldDescriptor.merge (budget : Nat) (field : FieldDescriptor) (record : Record) :
    Option FieldDescriptor :=
  match record.tag with
  | 1 => record.text?.map fun name => { field with name := some name }
  | 3 => record.int32?.map fun number => { field with number := some number }
  | 4 => record.int32?.map fun label => { field with label := some label }
  | 5 => record.int32?.map fun type => { field with type := some type }
  | 6 => record.text?.map fun typeName => { field with typeName := some typeName }
  | 9 => record.int32?.map fun choice => { field with choice := some choice }
  | 10 => record.text?.map fun jsonName => { field with jsonName := some jsonName }
  | 17 => record.flag?.map fun flag => { field with explicitPresence := some flag }
  | _ => record.skip? budget field

def FieldDescriptor.decode? (budget : Nat) : List UInt8 → Option FieldDescriptor :=
  readInto (merge budget) {}

def ChoiceDescriptor.merge (budget : Nat) (choice : ChoiceDescriptor) (record : Record) :
    Option ChoiceDescriptor :=
  match record.tag with
  | 1 => record.text?.map fun name => { choice with name := some name }
  | _ => record.skip? budget choice

def ChoiceDescriptor.decode? (budget : Nat) : List UInt8 → Option ChoiceDescriptor :=
  readInto (merge budget) {}

def EnumValueDescriptor.merge (budget : Nat) (value : EnumValueDescriptor) (record : Record) :
    Option EnumValueDescriptor :=
  match record.tag with
  | 1 => record.text?.map fun name => { value with name := some name }
  | 2 => record.int32?.map fun number => { value with number := some number }
  | _ => record.skip? budget value

def EnumValueDescriptor.decode? (budget : Nat) : List UInt8 → Option EnumValueDescriptor :=
  readInto (merge budget) {}

def EnumDescriptor.merge (budget : Nat) (enum : EnumDescriptor) (record : Record) :
    Option EnumDescriptor :=
  match record.tag with
  | 1 => record.text?.map fun name => { enum with name := some name }
  | 2 => (record.embedded? budget EnumValueDescriptor.decode?).map fun value =>
    { enum with values := enum.values ++ [value] }
  | _ => record.skip? budget enum

def EnumDescriptor.decode? (budget : Nat) : List UInt8 → Option EnumDescriptor :=
  readInto (merge budget) {}

def MessageOptions.merge (budget : Nat) (options : MessageOptions) (record : Record) :
    Option MessageOptions :=
  match record.tag with
  | 7 => record.flag?.map fun isEntry => { options with isEntry := some isEntry }
  | _ => record.skip? budget options

/-- The options of a message that take in further bytes. -/
def MessageOptions.decodeInto? (start : MessageOptions) (budget : Nat) :
    List UInt8 → Option MessageOptions :=
  readInto (merge budget) start

/-- A message that takes in a record; `inner` reads the messages nested in it. -/
def MessageDescriptor.merge (budget : Nat) (inner : List UInt8 → Option MessageDescriptor)
    (message : MessageDescriptor) (record : Record) : Option MessageDescriptor :=
  match record.tag with
  | 1 => record.text?.map fun name => { message with name := some name }
  | 2 => (record.embedded? budget FieldDescriptor.decode?).map fun field =>
    { message with fields := message.fields ++ [field] }
  | 3 => (record.bytes?.bind inner).map fun nested =>
    { message with nested := message.nested ++ [nested] }
  | 4 => (record.embedded? budget EnumDescriptor.decode?).map fun enum =>
    { message with enums := message.enums ++ [enum] }
  | 7 => (record.embedded? budget (message.options.getD {}).decodeInto?).map fun options =>
    { message with options := some options }
  | 8 => (record.embedded? budget ChoiceDescriptor.decode?).map fun choice =>
    { message with choices := message.choices ++ [choice] }
  | _ => record.skip? budget message

/-- A message within a budget; without budget no message is nested in it. -/
def MessageDescriptor.decode? : (budget : Nat) → List UInt8 → Option MessageDescriptor
  | 0 => readInto (merge 0 fun _ => none) {}
  | budget + 1 => readInto (merge (budget + 1) (decode? budget)) {}

def CustomPattern.merge (budget : Nat) (pattern : CustomPattern) (record : Record) :
    Option CustomPattern :=
  match record.tag with
  | 1 => record.text?.map fun kind => { pattern with kind }
  | 2 => record.text?.map fun path => { pattern with path }
  | _ => record.skip? budget pattern

/-- A custom pattern that takes in further bytes. -/
def CustomPattern.decodeInto? (start : CustomPattern) (budget : Nat) :
    List UInt8 → Option CustomPattern :=
  readInto (merge budget) start

/-- The custom pattern of a rule; a rule that has another pattern, or none, has the empty one. -/
def HttpRule.customPattern (rule : HttpRule) : CustomPattern :=
  match rule.pattern with
  | some (.custom pattern) => pattern
  | _ => {}

/-- A rule that takes in a record; `inner` reads the rules that it brings with it. Of several
patterns the last counts. -/
def HttpRule.merge (budget : Nat) (inner : List UInt8 → Option HttpRule) (rule : HttpRule)
    (record : Record) : Option HttpRule :=
  match record.tag with
  | 2 => record.text?.map fun path => { rule with pattern := some (.get path) }
  | 3 => record.text?.map fun path => { rule with pattern := some (.put path) }
  | 4 => record.text?.map fun path => { rule with pattern := some (.post path) }
  | 5 => record.text?.map fun path => { rule with pattern := some (.delete path) }
  | 6 => record.text?.map fun path => { rule with pattern := some (.patch path) }
  | 7 => record.text?.map fun body => { rule with body }
  | 8 => (record.embedded? budget rule.customPattern.decodeInto?).map fun pattern =>
    { rule with pattern := some (.custom pattern) }
  | 11 => (record.bytes?.bind inner).map fun additional =>
    { rule with additional := rule.additional ++ [additional] }
  | _ => record.skip? budget rule

/-- A rule that takes in further bytes; without budget it brings no further rules with it. -/
def HttpRule.decodeInto? (start : HttpRule) : (budget : Nat) → List UInt8 → Option HttpRule
  | 0 => readInto (merge 0 fun _ => none) start
  | budget + 1 => readInto (merge (budget + 1) (decodeInto? {} budget)) start

/-- The tag of the HTTP rule among the options of a method. -/
def httpTag : Nat := 72295728

def MethodOptions.merge (budget : Nat) (options : MethodOptions) (record : Record) :
    Option MethodOptions :=
  if record.tag = httpTag then
    (record.embedded? budget (options.http.getD {}).decodeInto?).map fun http =>
      { options with http := some http }
  else record.skip? budget options

/-- The options of a method that take in further bytes. -/
def MethodOptions.decodeInto? (start : MethodOptions) (budget : Nat) :
    List UInt8 → Option MethodOptions :=
  readInto (merge budget) start

def MethodDescriptor.merge (budget : Nat) (method : MethodDescriptor) (record : Record) :
    Option MethodDescriptor :=
  match record.tag with
  | 1 => record.text?.map fun name => { method with name := some name }
  | 2 => record.text?.map fun input => { method with input := some input }
  | 3 => record.text?.map fun output => { method with output := some output }
  | 4 => (record.embedded? budget (method.options.getD {}).decodeInto?).map fun options =>
    { method with options := some options }
  | 5 => record.flag?.map fun flag => { method with clientStreaming := some flag }
  | 6 => record.flag?.map fun flag => { method with serverStreaming := some flag }
  | _ => record.skip? budget method

def MethodDescriptor.decode? (budget : Nat) : List UInt8 → Option MethodDescriptor :=
  readInto (merge budget) {}

def ServiceDescriptor.merge (budget : Nat) (service : ServiceDescriptor) (record : Record) :
    Option ServiceDescriptor :=
  match record.tag with
  | 1 => record.text?.map fun name => { service with name := some name }
  | 2 => (record.embedded? budget MethodDescriptor.decode?).map fun method =>
    { service with methods := service.methods ++ [method] }
  | _ => record.skip? budget service

def ServiceDescriptor.decode? (budget : Nat) : List UInt8 → Option ServiceDescriptor :=
  readInto (merge budget) {}

def FileDescriptor.merge (budget : Nat) (file : FileDescriptor) (record : Record) :
    Option FileDescriptor :=
  match record.tag with
  | 1 => record.text?.map fun name => { file with name := some name }
  | 2 => record.text?.map fun package => { file with package := some package }
  | 3 => record.text?.map fun name => { file with dependencies := file.dependencies ++ [name] }
  | 4 => (record.embedded? budget MessageDescriptor.decode?).map fun message =>
    { file with messages := file.messages ++ [message] }
  | 5 => (record.embedded? budget EnumDescriptor.decode?).map fun enum =>
    { file with enums := file.enums ++ [enum] }
  | 6 => (record.embedded? budget ServiceDescriptor.decode?).map fun service =>
    { file with services := file.services ++ [service] }
  | _ => record.skip? budget file

def FileDescriptor.decode? (budget : Nat) : List UInt8 → Option FileDescriptor :=
  readInto (merge budget) {}

def GeneratorRequest.merge (budget : Nat) (request : GeneratorRequest) (record : Record) :
    Option GeneratorRequest :=
  match record.tag with
  | 1 => record.text?.map fun name => { request with requested := request.requested ++ [name] }
  | 2 => record.text?.map fun parameter => { request with parameter := some parameter }
  | 15 => (record.embedded? budget FileDescriptor.decode?).map fun file =>
    { request with files := request.files ++ [file] }
  | _ => record.skip? budget request

/-- How many levels of messages a request may have below it. -/
def depthLimit : Nat := 100

/-- **The request that the bytes are.** -/
def GeneratorRequest.decode? (bytes : List UInt8) : Option GeneratorRequest :=
  readInto (merge depthLimit) {} bytes

end ProtoClient
