import ProtoClient.Descriptor.Conversion

/-!
# From schemas to descriptors

The descriptor that says what a schema says, with every part present. A named type is of a kind,
a group, message or enum, that the schema does not tell; it is given by the name.

## Main definitions

* `File.toDescriptor kind file`: the descriptor of a file
* `Request.toDescriptor kind parameter request`: the request with the descriptors of its files
-/

namespace ProtoClient

/-- The number of a label in a descriptor. -/
def Label.number : Label → Int
  | .optional => 1
  | .required => 2
  | .repeated => 3

/-- The number of a type in a descriptor. -/
def FieldType.number (kind : String → Int) : FieldType → Int
  | .scalar type => type.number
  | .named name => kind name

/-- The name of a type that has one. -/
def FieldType.name? : FieldType → Option String
  | .scalar _ => none
  | .named name => some name

def Field.toDescriptor (kind : String → Int) (field : Field) : FieldDescriptor where
  name := some field.name
  number := some field.number
  label := some field.label.number
  type := some (field.type.number kind)
  typeName := field.type.name?
  choice := field.choice.map Int.ofNat
  jsonName := field.jsonName
  explicitPresence := some field.explicitPresence

def EnumType.toDescriptor (enum : EnumType) : EnumDescriptor where
  name := some enum.name
  values := enum.values.map fun value => ⟨some value.name, some value.number⟩

mutual

def Message.toDescriptor (kind : String → Int) : Message → MessageDescriptor
  | ⟨name, fields, nested, enums, choices, isEntry⟩ => {
      name := some name
      fields := fields.map (Field.toDescriptor kind)
      nested := Message.listToDescriptors kind nested
      enums := enums.map EnumType.toDescriptor
      options := some ⟨some isEntry⟩
      choices := choices.map fun choice => ⟨some choice⟩ }

/-- The descriptors of messages. -/
def Message.listToDescriptors (kind : String → Int) : List Message → List MessageDescriptor
  | [] => []
  | message :: rest => message.toDescriptor kind :: Message.listToDescriptors kind rest

end

/-- The pattern of a verb with its path. -/
def Verb.toPattern (path : String) : Verb → HttpPattern
  | .get => .get path
  | .put => .put path
  | .post => .post path
  | .delete => .delete path
  | .patch => .patch path
  | .custom kind => .custom ⟨kind, path⟩

def Binding.toRule (binding : Binding) : HttpRule where
  pattern := some (binding.verb.toPattern binding.path)
  body := binding.body.getD ""

def Method.toDescriptor (method : Method) : MethodDescriptor where
  name := some method.name
  input := some method.input
  output := some method.output
  options := some ⟨method.binding.map Binding.toRule⟩
  clientStreaming := some method.clientStreaming
  serverStreaming := some method.serverStreaming

def Service.toDescriptor (service : Service) : ServiceDescriptor where
  name := some service.name
  methods := service.methods.map Method.toDescriptor

/-- **The descriptor of a file.** -/
def File.toDescriptor (kind : String → Int) (file : File) : FileDescriptor where
  name := some file.name
  package := some file.package
  dependencies := file.dependencies
  messages := Message.listToDescriptors kind file.messages
  enums := file.enums.map EnumType.toDescriptor
  services := file.services.map Service.toDescriptor

/-- **The request of the proto compiler** for a run with parameters. -/
def Request.toDescriptor (kind : String → Int) (parameter : String) (request : Request) :
    GeneratorRequest where
  requested := request.requested
  parameter := some parameter
  files := request.files.map (File.toDescriptor kind)

theorem Verb.verbAndPath_toPattern (verb : Verb) (path : String) :
    (verb.toPattern path).verbAndPath = (verb, path) := by
  cases verb <;> rfl

end ProtoClient
