import ProtoClient.Schema.Basic

/-!
# Client modules

What is generated for a proto file, before it is written out: object types for the messages,
string enums for the enums, and a client class for each service. Every name is resolved: types by
their identifiers, fields by their property names, and other modules by import specifiers.

## Main definitions

* `Reference`, `TypeExpr`: types as the generated code refers to them
* `Property`, `Choice`, `ObjectType`, `StringEnum`: the declared types
* `Call`, `Operation`, `Client`: the methods that call the server
* `Import`, `ClientModule`: the module

## Main results

* `ClientModule.isEmpty_iff`: a module is empty when nothing in it would be generated
-/

namespace ProtoClient

/-- **A reference** to a declared type: its identifier and the proto file that declares it. -/
structure Reference where
  identifier : String
  file : String
  deriving DecidableEq, Repr, Inhabited

/-- **Types** as the generated code refers to them. -/
inductive TypeExpr
  /-- A type of the language itself. -/
  | builtin (text : String)
  | object (target : Reference)
  | enumeration (target : Reference)
  | map (key value : TypeExpr)
  deriving DecidableEq, Repr, Inhabited

namespace TypeExpr

/-- The references in a type, those of a map's key first. -/
def references : TypeExpr → List Reference
  | .builtin _ => []
  | .object target => [target]
  | .enumeration target => [target]
  | .map key value => key.references ++ value.references

/-- Whether the type is a map. -/
def isMap : TypeExpr → Bool
  | .map _ _ => true
  | _ => false

@[simp] theorem references_builtin (text : String) : (builtin text).references = [] := rfl

@[simp] theorem references_object (target : Reference) :
    (object target).references = [target] := rfl

@[simp] theorem references_enumeration (target : Reference) :
    (enumeration target).references = [target] := rfl

@[simp] theorem references_map (key value : TypeExpr) :
    (map key value).references = key.references ++ value.references := rfl

end TypeExpr

/-- **A property** of an object type, made from a field. -/
structure Property where
  protoName : String
  name : String
  number : Int
  type : TypeExpr
  repeated : Bool
  optional : Bool
  /-- The oneof that the property belongs to. -/
  choice : Option String
  deriving DecidableEq, Repr, Inhabited

/-- **A oneof** with the names of the properties of which at most one is set. -/
structure Choice where
  name : String
  properties : List String
  deriving DecidableEq, Repr, Inhabited

/-- **An object type**, made from a message. -/
structure ObjectType where
  protoName : String
  identifier : String
  properties : List Property
  choices : List Choice
  deriving DecidableEq, Repr, Inhabited

/-- **A string enum**, made from an enum. -/
structure StringEnum where
  protoName : String
  identifier : String
  values : List EnumValue
  deriving DecidableEq, Repr, Inhabited

/-- **A path parameter**: its text in the path, and the path of property names to its value. -/
structure PathParameter where
  template : String
  path : List String
  deriving DecidableEq, Repr, Inhabited

/-- **The HTTP call** of an operation. The body is the whole request under `*`, or one property
of it. -/
structure Call where
  verb : String
  path : String
  body : Option String
  parameters : List PathParameter
  deriving DecidableEq, Repr, Inhabited

/-- **An operation** of a client, made from a method that is bound to HTTP. -/
structure Operation where
  name : String
  request : TypeExpr
  response : TypeExpr
  clientStreaming : Bool
  serverStreaming : Bool
  call : Call
  deriving DecidableEq, Repr, Inhabited

/-- **A client**, made from a service, with the names of the methods that are not bound. -/
structure Client where
  protoName : String
  identifier : String
  operations : List Operation
  unbound : List String
  deriving DecidableEq, Repr, Inhabited

/-- Whether the client has operations. -/
def Client.isCallable (client : Client) : Bool :=
  !client.operations.isEmpty

/-- **An import** of identifiers from the module of another proto file. -/
structure Import where
  file : String
  output : String
  specifier : String
  identifiers : List String
  deriving DecidableEq, Repr, Inhabited

/-- **A client module**: what is generated for a proto file. -/
structure ClientModule where
  /-- The proto file. -/
  name : String
  package : String
  /-- The path of the generated module. -/
  output : String
  objects : List ObjectType
  enums : List StringEnum
  clients : List Client
  imports : List Import
  /-- The specifier of the shared fetch module, if an operation needs it. -/
  fetch : Option String
  stylingCheck : Bool
  deriving DecidableEq, Repr, Inhabited

namespace ClientModule

/-- Whether some operation needs the shared fetch module. -/
def needsFetch (module : ClientModule) : Bool :=
  module.clients.any Client.isCallable

/-- Whether nothing in the module would be generated. -/
def isEmpty (module : ClientModule) : Bool :=
  module.objects.isEmpty && module.enums.isEmpty && !module.needsFetch

/-- The paths of the imported modules. -/
def importedOutputs (module : ClientModule) : List String :=
  module.imports.map Import.output

/-- A module is empty when it has no object type, no enum and no operation. -/
theorem isEmpty_iff {module : ClientModule} :
    module.isEmpty = true ↔ module.objects = [] ∧ module.enums = [] ∧
      ∀ client ∈ module.clients, client.operations = [] := by
  simp [isEmpty, needsFetch, Client.isCallable, and_assoc]

end ClientModule

end ProtoClient
