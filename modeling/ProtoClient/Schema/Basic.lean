import ProtoClient.TypeName

/-!
# Proto schemas

The declarations of compiled proto files, as far as clients depend on them: messages with their
fields, enums, and services whose methods may be bound to HTTP. Types are referred to by their
qualified names.

## Main definitions

* `File`, `Message`, `Field`, `EnumType`, `Service`, `Method`: the declarations
* `Scalar`, `FieldType`, `Label`: what a field holds, and how often
* `Binding`, `Verb`: the HTTP rule of a method

## Main results

* `Message.induction`: a property of all messages follows from its passing from the nested
  messages of a message to the message
-/

namespace ProtoClient

/-- How often a field occurs. -/
inductive Label
  | optional
  | required
  | repeated
  deriving DecidableEq, Repr, Inhabited

/-- The scalar types of proto. -/
inductive Scalar
  | double
  | float
  | int64
  | uint64
  | int32
  | fixed64
  | fixed32
  | bool
  | string
  | bytes
  | uint32
  | sfixed32
  | sfixed64
  | sint32
  | sint64
  deriving DecidableEq, Repr, Inhabited

/-- **What a field holds**: a scalar, or the message or enum of a name, which may have a dot in
front. -/
inductive FieldType
  | scalar (type : Scalar)
  | named (name : String)
  deriving DecidableEq, Repr, Inhabited

/-- **A field** of a message. -/
structure Field where
  name : String
  number : Int
  /-- The property name that the declaration asks for. -/
  jsonName : Option String
  label : Label
  type : FieldType
  /-- The position of its oneof among the oneofs of the message. -/
  choice : Option Nat
  /-- The field tells absence from a zero value; it has a oneof of its own, which is not shown. -/
  explicitPresence : Bool
  deriving DecidableEq, Repr, Inhabited

/-- A value of an enum. -/
structure EnumValue where
  name : String
  number : Int
  deriving DecidableEq, Repr, Inhabited

/-- **An enum.** -/
structure EnumType where
  name : String
  values : List EnumValue
  deriving DecidableEq, Repr, Inhabited

/-- **A message**, with the messages and enums nested in it and the names of its oneofs. An entry
message stands for the key and value of a map field. -/
structure Message where
  name : String
  fields : List Field
  nested : List Message
  enums : List EnumType
  choices : List String
  isEntry : Bool
  deriving Repr, Inhabited

/-- The HTTP method of a rule. -/
inductive Verb
  | get
  | put
  | post
  | delete
  | patch
  | custom (kind : String)
  deriving DecidableEq, Repr, Inhabited

/-- The word for a verb in a request. -/
def Verb.word : Verb → String
  | .get => "GET"
  | .put => "PUT"
  | .post => "POST"
  | .delete => "DELETE"
  | .patch => "PATCH"
  | .custom kind => kind

/-- **An HTTP rule**: the verb, the path template, and what is sent as the body: everything under
`*`, or one field. -/
structure Binding where
  verb : Verb
  path : String
  body : Option String
  deriving DecidableEq, Repr, Inhabited

/-- **A method** of a service; without a rule it cannot be called over HTTP. -/
structure Method where
  name : String
  input : String
  output : String
  clientStreaming : Bool
  serverStreaming : Bool
  binding : Option Binding
  deriving DecidableEq, Repr, Inhabited

/-- **A service.** -/
structure Service where
  name : String
  methods : List Method
  deriving DecidableEq, Repr, Inhabited

/-- **A proto file.** -/
structure File where
  name : String
  package : String
  dependencies : List String
  messages : List Message
  enums : List EnumType
  services : List Service
  deriving Repr, Inhabited

/-- The property name of a field: its proto name if that is asked for, else the name that it asks
for itself, else its lower camel case. -/
def Field.propertyName (protoNames : Bool) (field : Field) : String :=
  if protoNames then field.name
  else
    match field.jsonName with
    | some name => if name = "" then camelCase field.name else name
    | none => camelCase field.name

/-- A property of all messages follows from its passing from the nested messages of a message to
the message. -/
theorem Message.induction {motive : Message → Prop}
    (step : ∀ message : Message, (∀ inner ∈ message.nested, motive inner) → motive message)
    (message : Message) : motive message :=
  @Message.rec motive (fun inners => ∀ inner ∈ inners, motive inner)
    (fun name fields nested enums choices isEntry hinner =>
      step ⟨name, fields, nested, enums, choices, isEntry⟩ hinner)
    (by simp)
    (fun _ _ hfirst hrest => List.forall_mem_cons.mpr ⟨hfirst, hrest⟩)
    message

end ProtoClient
