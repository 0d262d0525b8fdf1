import ProtoClient.Proofs.Descriptor.Reading
import ProtoClient.Proofs.Wire.Grammar

/-!
# Fields that are not declared

A descriptor has far more fields than clients depend on. A record of a tag that a type of message
does not declare is passed over: wherever it stands among the records of a message, and whatever is
in it, the message decodes as without it, as long as the budget covers the height of the record.

## Main definitions

* `MessageType`: the types of messages in a request, with their values, declared tags and decoders

## Main results

* `MessageType.merge_of_notMem`: a record of a tag that is not declared is passed over
* `MessageType.decode?_undeclared`: a message decodes as without such a record
-/

namespace ProtoClient

/-- **The types of messages** in a request. -/
inductive MessageType
  | request
  | file
  | message
  | messageOptions
  | field
  | choice
  | enumeration
  | enumerationValue
  | service
  | method
  | methodOptions
  | rule
  | pattern
  deriving DecidableEq, Repr

namespace MessageType

/-- The values of a type of message. -/
abbrev Value : MessageType → Type
  | request => GeneratorRequest
  | file => FileDescriptor
  | message => MessageDescriptor
  | messageOptions => MessageOptions
  | field => FieldDescriptor
  | choice => ChoiceDescriptor
  | enumeration => EnumDescriptor
  | enumerationValue => EnumValueDescriptor
  | service => ServiceDescriptor
  | method => MethodDescriptor
  | methodOptions => MethodOptions
  | rule => HttpRule
  | pattern => CustomPattern

/-- **The tags that a type of message declares.** -/
def tags : MessageType → List Nat
  | request => [1, 2, 15]
  | file => [1, 2, 3, 4, 5, 6]
  | message => [1, 2, 3, 4, 7, 8]
  | messageOptions => [7]
  | field => [1, 3, 4, 5, 6, 9, 10, 17]
  | choice => [1]
  | enumeration => [1, 2]
  | enumerationValue => [1, 2]
  | service => [1, 2]
  | method => [1, 2, 3, 4, 5, 6]
  | methodOptions => [httpTag]
  | rule => [2, 3, 4, 5, 6, 7, 8, 11]
  | pattern => [1, 2]

/-- **The message of a type** that bytes are, within a budget. -/
def decode? : (type : MessageType) → (budget : Nat) → List UInt8 → Option type.Value
  | request, budget => readInto (GeneratorRequest.merge budget) {}
  | file, budget => FileDescriptor.decode? budget
  | message, budget => MessageDescriptor.decode? budget
  | messageOptions, budget => MessageOptions.decodeInto? {} budget
  | field, budget => FieldDescriptor.decode? budget
  | choice, budget => ChoiceDescriptor.decode? budget
  | enumeration, budget => EnumDescriptor.decode? budget
  | enumerationValue, budget => EnumValueDescriptor.decode? budget
  | service, budget => ServiceDescriptor.decode? budget
  | method, budget => MethodDescriptor.decode? budget
  | methodOptions, budget => MethodOptions.decodeInto? {} budget
  | rule, budget => HttpRule.decodeInto? {} budget
  | pattern, budget => CustomPattern.decodeInto? {} budget

/-- A message of a type that takes in a record. -/
def merge : (type : MessageType) → (budget : Nat) → type.Value → Record → Option type.Value
  | request => GeneratorRequest.merge
  | file => FileDescriptor.merge
  | message => MessageDescriptor.mergeWithin
  | messageOptions => MessageOptions.merge
  | field => FieldDescriptor.merge
  | choice => ChoiceDescriptor.merge
  | enumeration => EnumDescriptor.merge
  | enumerationValue => EnumValueDescriptor.merge
  | service => ServiceDescriptor.merge
  | method => MethodDescriptor.merge
  | methodOptions => MethodOptions.merge
  | rule => HttpRule.mergeWithin
  | pattern => CustomPattern.merge

/-- The message of a type without any part. -/
def empty : (type : MessageType) → type.Value
  | request => ({} : GeneratorRequest)
  | file => ({} : FileDescriptor)
  | message => ({} : MessageDescriptor)
  | messageOptions => ({} : MessageOptions)
  | field => ({} : FieldDescriptor)
  | choice => ({} : ChoiceDescriptor)
  | enumeration => ({} : EnumDescriptor)
  | enumerationValue => ({} : EnumValueDescriptor)
  | service => ({} : ServiceDescriptor)
  | method => ({} : MethodDescriptor)
  | methodOptions => ({} : MethodOptions)
  | rule => ({} : HttpRule)
  | pattern => ({} : CustomPattern)

variable {type : MessageType} {budget : Nat} {record : Record}

/-- A message takes in its records one by one. -/
theorem decode?_eq (type : MessageType) (budget : Nat) :
    type.decode? budget = readInto (type.merge budget) type.empty := by
  cases type with
  | message => exact MessageDescriptor.decode?_eq budget
  | rule => exact HttpRule.decodeInto?_eq {} budget
  | _ => rfl

/-- **A record of a tag that is not declared is passed over.** -/
theorem merge_of_notMem (htag : record.tag ∉ type.tags) (value : type.Value) :
    type.merge budget value record = record.skip? budget value := by
  cases type <;>
  · simp only [tags, List.mem_cons, List.not_mem_nil, or_false, not_or] at htag
    simp [merge, FileDescriptor.merge, GeneratorRequest.merge, MessageDescriptor.mergeWithin,
      MessageDescriptor.merge, MessageOptions.merge, FieldDescriptor.merge, ChoiceDescriptor.merge,
      EnumDescriptor.merge, EnumValueDescriptor.merge, ServiceDescriptor.merge,
      MethodDescriptor.merge, MethodOptions.merge, HttpRule.mergeWithin, HttpRule.merge,
      CustomPattern.merge, htag]

/-- The step of bytes that are a record of a tag that is not declared changes nothing. -/
theorem reads_undeclared {undeclared : List UInt8} (hspells : record.Spells undeclared)
    (htag : record.tag ∉ type.tags) (hheight : record.payload.height ≤ budget) :
    Reads (type.merge budget) undeclared some := by
  have hread := hspells.read []
  rw [List.append_nil] at hread
  intro value rest
  have hstep : type.merge budget value record = some value := by
    rw [merge_of_notMem htag]
    exact Record.skip?_eq_some_iff.mpr ⟨hheight, rfl⟩
  rw [reads_of_record (records?_of_read_eq hread) value rest, ← hstep]

/-- **A message decodes as without a record that it does not declare**, wherever that stands behind
other records and whatever follows it, as long as the budget covers the height of the record. -/
theorem decode?_undeclared {front undeclared back : List UInt8}
    (hfront : (type.decode? budget front).isSome) (hspells : record.Spells undeclared)
    (htag : record.tag ∉ type.tags) (hheight : record.payload.height ≤ budget) :
    type.decode? budget (front ++ undeclared ++ back) = type.decode? budget (front ++ back) := by
  rw [decode?_eq] at hfront ⊢
  obtain ⟨value, hvalue⟩ := Option.isSome_iff_exists.mp hfront
  have hrecords : (records? front).isSome := isSome_records?_of_readInto hvalue
  rw [List.append_assoc, readInto_append hrecords, readInto_append hrecords, hvalue,
    Option.bind_some, Option.bind_some, reads_undeclared hspells htag hheight, Option.bind_some]

/-- A rule with a group of a tag that it does not declare, and in the group a record of the tag of
the body. -/
theorem decode?_undeclared_group :
    (rule.decode? 2 [0x3a, 1, 42]).isSome ∧
      (⟨12, .group 2⟩ : Record).Spells [0x63, 0x3a, 1, 120, 0x64] ∧ 12 ∉ rule.tags ∧
      rule.decode? 2 ([0x3a, 1, 42] ++ [0x63, 0x3a, 1, 120, 0x64] ++ [0x12, 2, 47, 97]) =
        some { body := "*", pattern := some (.get "/a") } := by
  have hfront : (rule.decode? 2 [0x3a, 1, 42]).isSome := by decide +kernel
  have hmember : (⟨7, .delimited [120]⟩ : Record).Spells [0x3a, 1, 120] :=
    @Record.Spells.simple 7 .delimited _ [0x3a] [1, 120]
      (spellsKey_singleton (by decide) rfl (by decide))
      (@Payload.Spells.delimited [1] [120] (Varint.spells_singleton (by decide)))
  have hspells : (⟨12, .group 2⟩ : Record).Spells [0x63, 0x3a, 1, 120, 0x64] :=
    @Record.Spells.group 12 [0x63] [0x64] [(⟨7, .delimited [120]⟩, [0x3a, 1, 120])]
      (spellsKey_singleton (by decide) rfl (by decide)) (List.forall_mem_singleton.mpr hmember)
      (spellsKey_singleton (by decide) rfl (by decide))
  refine ⟨hfront, hspells, by decide, ?_⟩
  rw [decode?_undeclared hfront hspells (by decide) (by decide)]
  cbv

end MessageType

end ProtoClient
