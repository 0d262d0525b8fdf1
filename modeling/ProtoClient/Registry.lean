import ProtoClient.NameMap
import ProtoClient.Fault
import ProtoClient.Schema.Basic

/-!
# The registry of types

All messages and enums of a run, whichever file declares them, are registered under their
qualified names before anything is generated: a message comes before what is nested in it. No name
may be declared twice.

## Main definitions

* `Registered`: a registered type with its declaring file
* `Registry`: the registered types by name
* `Registry.addMessage file scope registry message`: the registry with a message and all that is
  nested in it
* `Registry.ofFiles files`: the types that the files declare
* `Registry.find? registry name`: the type of a name, which may have a dot in front

## Main results

* `Registry.find?_dot`: a dot in front of a name does not count
-/

namespace ProtoClient

/-- The types of the key and the value of a map field. -/
structure MapEntry where
  key : FieldType
  value : FieldType
  deriving DecidableEq, Repr, Inhabited

/-- What a registered type is: an enum, or a message, which may stand for a map entry. -/
inductive TypeKind
  | message (entry : Option MapEntry)
  | enumeration
  deriving DecidableEq, Repr, Inhabited

/-- **A registered type**: its qualified name, the file that declares it, what it is, and its
fields. -/
structure Registered where
  name : String
  file : String
  kind : TypeKind
  fields : List Field
  deriving DecidableEq, Repr, Inhabited

/-- The declared field of a proto name. -/
def Registered.field? (type : Registered) (name : String) : Option Field :=
  type.fields.find? (·.name = name)

/-- The key and value types of an entry message: those of its first fields numbered one and two. A
message that is not flagged as an entry, or lacks one of the two, is no map entry. -/
def Message.mapEntry (message : Message) : Option MapEntry :=
  if message.isEntry then
    match message.fields.find? (·.number = 1), message.fields.find? (·.number = 2) with
    | some key, some value => some ⟨key.type, value.type⟩
    | _, _ => none
  else none

/-- **The registry**: the registered types by their qualified names. -/
abbrev Registry := NameMap Registered

namespace Registry

/-- A type entered under its name, unless the name is taken. -/
def enter (registry : Registry) (type : Registered) : Except Fault Registry :=
  match registry.get? type.name with
  | some earlier => .error (.duplicateType type.name earlier.file type.file)
  | none => .ok (registry.insert type.name type)

/-- An enum of a scope registered. -/
def addEnum (file scope : String) (registry : Registry) (enum : EnumType) :
    Except Fault Registry :=
  registry.enter ⟨qualify scope enum.name, file, .enumeration, []⟩

mutual

/-- A message of a scope registered, and then what is nested in it: its messages before its
enums. -/
def addMessage (file scope : String) (registry : Registry) : Message → Except Fault Registry
  | ⟨name, fields, nested, enums, choices, isEntry⟩ => do
    let inner := qualify scope name
    let entry := Message.mapEntry ⟨name, fields, nested, enums, choices, isEntry⟩
    let registry ← registry.enter ⟨inner, file, .message entry, fields⟩
    let registry ← addMessages file inner registry nested
    enums.foldlM (addEnum file inner) registry

/-- Several messages of a scope registered, one after the other. -/
def addMessages (file scope : String) (registry : Registry) :
    List Message → Except Fault Registry
  | [] => .ok registry
  | message :: rest => do
    let registry ← addMessage file scope registry message
    addMessages file scope registry rest

end

/-- The types of a file registered, its messages before its enums. -/
def addFile (registry : Registry) (file : File) : Except Fault Registry := do
  let registry ← addMessages file.name file.package registry file.messages
  file.enums.foldlM (addEnum file.name file.package) registry

/-- **The registry of the files**: every type that they declare. -/
def ofFiles (files : List File) : Except Fault Registry :=
  files.foldlM addFile .empty

/-- The registered type of a name, which may have a dot in front. -/
def find? (registry : Registry) (name : String) : Option Registered :=
  registry.get? (withoutDot name)

/-- How many map entries are registered. -/
def entryCount (registry : Registry) : Nat :=
  registry.values.countP fun type => type.kind matches .message (some _)

@[simp] theorem find?_dot (registry : Registry) (name : String) :
    registry.find? ("." ++ name) = registry.get? name := by
  rw [find?, withoutDot_dot]

end Registry

end ProtoClient
