import ProtoClient.Schema.Basic

/-!
# The declarations of a file

A file declares its messages and enums, the nested ones included. The walk lists them with their
qualified names: every message comes before the messages nested in it, those before the enums
nested in it, and the enums of the file come last.

## Main definitions

* `Declaration`: a message or enum under its qualified name
* `File.declarations`: the walk through a file

## Main results

* `Message.declarations_eq`: the walk through a message
-/

namespace ProtoClient

/-- What a declaration declares. -/
inductive Declared
  | message (message : Message)
  | enumeration (enum : EnumType)
  deriving Repr, Inhabited

/-- **A declaration**: a message or enum under its qualified name. A declaration is inlined when
it is an entry message or stands inside one: where it is used, the map it stands for is written. -/
structure Declaration where
  name : String
  inlined : Bool
  declared : Declared
  deriving Repr, Inhabited

/-- The declarations of enums in a scope. -/
def EnumType.declarations (scope : String) (inlined : Bool) (enums : List EnumType) :
    List Declaration :=
  enums.map fun enum => ⟨qualify scope enum.name, inlined, .enumeration enum⟩

mutual

/-- The walk through a message in a scope. -/
def Message.declarations (scope : String) (inlined : Bool) : Message → List Declaration
  | ⟨name, fields, nested, enums, choices, isEntry⟩ =>
    let inner := qualify scope name
    let hidden := inlined || isEntry
    ⟨inner, hidden, .message ⟨name, fields, nested, enums, choices, isEntry⟩⟩ ::
      (Message.listDeclarations inner hidden nested ++ EnumType.declarations inner hidden enums)

/-- The walk through several messages in a scope. -/
def Message.listDeclarations (scope : String) (inlined : Bool) :
    List Message → List Declaration
  | [] => []
  | message :: rest =>
    message.declarations scope inlined ++ Message.listDeclarations scope inlined rest

end

/-- **The walk through a file.** -/
def File.declarations (file : File) : List Declaration :=
  Message.listDeclarations file.package false file.messages ++
    EnumType.declarations file.package false file.enums

theorem Message.listDeclarations_eq_flatMap (scope : String) (inlined : Bool)
    (messages : List Message) :
    Message.listDeclarations scope inlined messages =
      messages.flatMap (·.declarations scope inlined) := by
  induction messages with
  | nil => rfl
  | cons message rest ih => rw [Message.listDeclarations, ih, List.flatMap_cons]

/-- The walk through a message: itself, the messages nested in it, the enums nested in it. -/
theorem Message.declarations_eq (scope : String) (inlined : Bool) (message : Message) :
    message.declarations scope inlined =
      ⟨qualify scope message.name, inlined || message.isEntry, .message message⟩ ::
        (message.nested.flatMap
            (·.declarations (qualify scope message.name) (inlined || message.isEntry)) ++
          EnumType.declarations (qualify scope message.name) (inlined || message.isEntry)
            message.enums) := by
  rw [← Message.listDeclarations_eq_flatMap]
  cases message
  rfl

end ProtoClient
