import ProtoClient.ClientModule.Basic
import ProtoClient.Options
import ProtoClient.OutputPath
import ProtoClient.PathTemplate
import ProtoClient.Registry
import ProtoClient.Schema.Builtin
import ProtoClient.Schema.Declaration

/-!
# Resolving a file

The client module of a proto file is found by resolving every name in the file: types through the
registry of all files, fields to their property names, and the parameters of path templates to
property paths of the request. What the module refers to in other files is what it imports.

## Main definitions

* `Registry.resolve`: the reference to a registered type, or the name that is missing
* `resolveType`: the type that a field type stands for
* `propertyPath`: the property names along a path of proto field names
* `Message.choicesOf`: the oneofs of a message with their properties
* `importsOf`: the imports that a list of references needs
* `ClientModule.ofFile?`: the client module of a file

## Main results

* `propertyPath_length`: a property path is as long as the field path it comes from
-/

namespace ProtoClient

/-- The reference to a registered type. -/
def Registered.reference (type : Registered) : Reference :=
  ⟨ProtoClient.identifier type.name, type.file⟩

/-- **The reference to the type that is registered** under a name, which may have a dot in front; or
the name without the dot, where nothing is registered under it. -/
def Registry.resolve (registry : Registry) (name : String) : Except String Reference :=
  match registry.find? name with
  | some type => .ok type.reference
  | none => .error (withoutDot name)

/-- The type that a field type stands for in a file, followed through map entries that are at most
`depth` deep inside each other. A well-known type is builtin even where a file declares it; a map
entry is written as the map. -/
def resolveWithin (registry : Registry) (file : String) :
    Nat → FieldType → Except NoResult TypeExpr
  | _, .scalar scalar => .ok (.builtin scalar.builtin)
  | depth, .named name =>
    match builtin? name with
    | some text => .ok (.builtin text)
    | none =>
      match registry.find? name with
      | none => .error (.fault (.unknownType file (withoutDot name)))
      | some type =>
        match type.kind with
        | .enumeration => .ok (.enumeration type.reference)
        | .message none => .ok (.object type.reference)
        | .message (some entry) =>
          match depth with
          | 0 => .error .endless
          | depth + 1 => do
            let key ← resolveWithin registry file depth entry.key
            let value ← resolveWithin registry file depth entry.value
            return .map key value

/-- **The type that a field type stands for** in a file. There is no limit to how deep map entries
are followed: what needs more depth than there are map entries leads back to one of them, and comes
to no end at any depth. -/
def resolveType (registry : Registry) (file : String) (type : FieldType) :
    Except NoResult TypeExpr :=
  resolveWithin registry file registry.entryCount type

/-- The name of the oneof at an index: the declared one, or a made-up one where none is
declared. -/
def Message.choiceName (message : Message) (index : Nat) : String :=
  match message.choices[index]? with
  | some name => name
  | none => "oneof_" ++ toString index

/-- The name of the oneof that a field of the message belongs to. The oneof of a field with
explicit presence is not shown. -/
def Message.choiceOf? (message : Message) (field : Field) : Option String :=
  match field.choice with
  | some index => if field.explicitPresence then none else some (message.choiceName index)
  | none => none

/-- The property of a field of a message. -/
def Message.property (registry : Registry) (options : Options) (file : String)
    (message : Message) (field : Field) : Except NoResult Property := do
  let type ← resolveType registry file field.type
  return {
    protoName := field.name
    name := field.propertyName options.protoNames
    number := field.number
    type
    repeated := field.label = .repeated && !type.isMap
    optional := field.explicitPresence
    choice := message.choiceOf? field }

/-- **The oneofs** that the properties belong to, each with its properties in order: first those
that the message does not declare, in the order of their first properties, then the declared ones
in the order of their declarations. -/
def Message.choicesOf (message : Message) (properties : List Property) : List Choice :=
  let used := (properties.filterMap Property.choice).eraseDups
  let names := used.filter (!message.choices.contains ·) ++
    message.choices.eraseDups.filter (used.contains ·)
  names.map fun name => ⟨name, (properties.filter (·.choice = some name)).map Property.name⟩

/-- The object type of a message under its qualified name. -/
def Message.objectType (registry : Registry) (options : Options) (file name : String)
    (message : Message) : Except NoResult ObjectType := do
  let properties ← message.fields.mapM (message.property registry options file)
  return ⟨name, identifier name, properties, message.choicesOf properties⟩

/-- The string enum of an enum under its qualified name. -/
def EnumType.stringEnum (name : String) (enum : EnumType) : StringEnum :=
  ⟨name, identifier name, enum.values⟩

/-- The messages that a file shows, under their qualified names: those that are not inlined. -/
def File.shownMessages (file : File) : List (String × Message) :=
  file.declarations.filterMap fun declaration =>
    match declaration with
    | ⟨name, false, .message message⟩ => some (name, message)
    | _ => none

/-- The enums that a file shows, under their qualified names: those that are not inlined. -/
def File.shownEnums (file : File) : List (String × EnumType) :=
  file.declarations.filterMap fun declaration =>
    match declaration with
    | ⟨name, false, .enumeration enum⟩ => some (name, enum)
    | _ => none

/-- The property names along a path of proto field names that starts at a registered type. From
the first name on that is no declared field, a name stands for its camel case, or for itself
where proto names are kept. -/
def propertyPath (registry : Registry) (options : Options) :
    Option Registered → List String → List String
  | _, [] => []
  | type, segment :: rest =>
    match type.bind (·.field? segment) with
    | some field =>
      let next :=
        match field.type with
        | .named name => registry.find? name
        | .scalar _ => none
      field.propertyName options.protoNames :: propertyPath registry options next rest
    | none =>
      (if options.protoNames then segment else camelCase segment) ::
        propertyPath registry options none rest

/-- What is sent as the body of a call: nothing, everything, or one property. -/
def bodyOf (registry : Registry) (options : Options) (input : Option Registered)
    (binding : Binding) : Option String :=
  match binding.body with
  | none => none
  | some field =>
    if field = "" then none
    else if field = "*" then some "*"
    else some (String.join (propertyPath registry options input [field]))

/-- The operation of a method with its HTTP rule. -/
def Method.operation (registry : Registry) (options : Options) (file : String) (method : Method)
    (binding : Binding) : Except NoResult Operation := do
  let request ← resolveType registry file (.named method.input)
  let response ← resolveType registry file (.named method.output)
  let parameters ←
    match PathTemplate.parameters? binding.path with
    | .ok parameters => .ok parameters
    | .error reason => .error (.fault (.malformedPath file method.name binding.path reason))
  let input := registry.find? method.input
  return {
    name := method.name
    request
    response
    clientStreaming := method.clientStreaming
    serverStreaming := method.serverStreaming
    call := {
      verb := binding.verb.word
      path := binding.path
      body := bodyOf registry options input binding
      parameters := parameters.map fun parameter =>
        ⟨parameter.template, propertyPath registry options input parameter.segments⟩ } }

/-- The methods of a service that are bound to HTTP, with their rules. -/
def Service.boundMethods (service : Service) : List (Method × Binding) :=
  service.methods.filterMap fun method => method.binding.map (method, ·)

/-- The client of a service of a package. -/
def Service.client (registry : Registry) (options : Options) (file package : String)
    (service : Service) : Except NoResult Client := do
  let name := qualify package service.name
  let operations ← service.boundMethods.mapM fun (method, binding) =>
    method.operation registry options file binding
  return {
    protoName := name
    identifier := identifier name
    operations
    unbound := (service.methods.filter (·.binding.isNone)).map Method.name }

/-- The references in the types of object types and clients. -/
def referencesOf (objects : List ObjectType) (clients : List Client) : List Reference :=
  objects.flatMap (fun object => object.properties.flatMap (·.type.references)) ++
    clients.flatMap fun client => client.operations.flatMap fun operation =>
      operation.request.references ++ operation.response.references

/-- **The imports** that references in the module of a file need, in the order of the declaring
files. What the file itself declares is not imported, nor is anything from a file whose module is
written to the same path. -/
def importsOf (file output : String) (references : List Reference) : List Import :=
  let files := sortNames ((references.map Reference.file).filter fun other =>
    other ≠ file ∧ outputPath other ≠ output)
  files.map fun other => {
    file := other
    output := outputPath other
    specifier := specifier output (outputPath other)
    identifiers :=
      sortNames ((references.filter (·.file = other)).map Reference.identifier) }

/-- **The client module of a file**, or why there is none: the messages are resolved before the
services. -/
def ClientModule.ofFile? (registry : Registry) (options : Options) (file : File) :
    Except NoResult ClientModule := do
  let objects ← file.shownMessages.mapM fun (name, message) =>
    message.objectType registry options file.name name
  let clients ← file.services.mapM (·.client registry options file.name file.package)
  let output := outputPath file.name
  return {
    name := file.name
    package := file.package
    output
    objects
    enums := file.shownEnums.map fun (name, enum) => enum.stringEnum name
    clients
    imports := importsOf file.name output (referencesOf objects clients)
    fetch :=
      if clients.any Client.isCallable then some (specifier output options.fetchPath) else none
    stylingCheck := options.stylingCheck }

/-- **The client modules of a run**, one for each file in order: all files are registered before
the first is resolved. -/
def modulesOf (options : Options) (files : List File) :
    Except NoResult (List ClientModule) := do
  let registry ← (Registry.ofFiles files).mapError .fault
  files.mapM (ClientModule.ofFile? registry options)

/-- A property path is as long as the field path it comes from. -/
@[simp] theorem propertyPath_length (registry : Registry) (options : Options)
    (type : Option Registered) (segments : List String) :
    (propertyPath registry options type segments).length = segments.length := by
  induction segments generalizing type with
  | nil => rfl
  | cons segment rest ih =>
    rw [propertyPath]
    split <;> simp [ih]

end ProtoClient
