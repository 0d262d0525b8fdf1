import ProtoClient.ClientModule.Resolution
import ProtoClient.Proofs.Outcome

/-!
# What resolution yields

A field type stands for a builtin type, for a registered type, or for the map that a registered
map entry is written as. This file says so without a bound on how deep maps nest, and takes the
module of a file apart into what its declarations are resolved to.

## Main definitions

* `Resolves registry type expr`: the field type `type` stands for `expr`
* `TypeExpr.parts`: a type with the types inside it
* `ClientModule.types`: the types that occur in a module
* `ClientModule.ofParts`: the module that is made of given object types and clients

## Main results

* `resolves_of_resolveWithin`: what resolution yields is what the field type stands for
* `ClientModule.ofFile?_eq_ok_iff`: a file has a module when its messages and services resolve
* `ClientModule.exists_resolves_of_mem_types`: every type in a module comes from resolution
* `modulesOf_eq_ok_iff`: a run has modules when its files are registered and each has a module
-/

namespace ProtoClient

variable {registry : Registry} {options : Options} {file : File} {module : ClientModule}

/-- **What a field type stands for.** A well-known name is builtin whatever is registered under
it. -/
inductive Resolves (registry : Registry) : FieldType → TypeExpr → Prop
  | scalar (scalar : Scalar) : Resolves registry (.scalar scalar) (.builtin scalar.builtin)
  | wellKnown {name text : String} (hb : builtin? name = some text) :
    Resolves registry (.named name) (.builtin text)
  | enumeration {name : String} {type : Registered} (hb : builtin? name = none)
    (hf : registry.find? name = some type) (hk : type.kind = .enumeration) :
    Resolves registry (.named name) (.enumeration type.reference)
  | object {name : String} {type : Registered} (hb : builtin? name = none)
    (hf : registry.find? name = some type) (hk : type.kind = .message none) :
    Resolves registry (.named name) (.object type.reference)
  | map {name : String} {type : Registered} {entry : MapEntry} {key value : TypeExpr}
    (hb : builtin? name = none) (hf : registry.find? name = some type)
    (hk : type.kind = .message (some entry)) (hkey : Resolves registry entry.key key)
    (hvalue : Resolves registry entry.value value) :
    Resolves registry (.named name) (.map key value)

/-- **One level of resolution**: a name is well known, or registered as an enum, as a message, or as
a map entry whose key and value are resolved one level deeper. -/
theorem resolveWithin_named_eq_ok_iff {source name : String} {depth : Nat} {expr : TypeExpr} :
    resolveWithin registry source depth (.named name) = .ok expr ↔
      (∃ text, builtin? name = some text ∧ expr = .builtin text) ∨
      (builtin? name = none ∧ ∃ type, registry.find? name = some type ∧
        ((type.kind = .enumeration ∧ expr = .enumeration type.reference) ∨
          (type.kind = .message none ∧ expr = .object type.reference) ∨
          ∃ entry below key value, type.kind = .message (some entry) ∧ depth = below + 1 ∧
            resolveWithin registry source below entry.key = .ok key ∧
            resolveWithin registry source below entry.value = .ok value ∧
            expr = .map key value)) := by
  cases hb : builtin? name with
  | some text => simp [resolveWithin, hb, eq_comm]
  | none =>
    cases hf : registry.find? name with
    | none => cases depth <;> simp [resolveWithin, hb, hf]
    | some type =>
      rcases hk : type.kind with (_ | entry) | _
      · cases depth <;> simp [resolveWithin, hb, hf, hk, eq_comm]
      · cases depth with
        | zero => simp [resolveWithin, hb, hf, hk]
        | succ below =>
          simp only [resolveWithin, hb, hf, hk]
          constructor
          · intro h
            obtain ⟨key, hkey, h⟩ := bind_eq_ok_iff.mp h
            obtain ⟨value, hvalue, h⟩ := bind_eq_ok_iff.mp h
            cases h
            exact .inr ⟨trivial, type, rfl,
              .inr (.inr ⟨entry, below, key, value, hk, rfl, hkey, hvalue, rfl⟩)⟩
          · rintro (⟨_, hb', -⟩ | ⟨-, _, ⟨⟩, h⟩)
            · cases hb'
            rcases h with ⟨hk', -⟩ | ⟨hk', -⟩ | ⟨_, _, key, value, hk', hd, hkey, hvalue, rfl⟩
            · exact absurd (hk.symm.trans hk') (by simp)
            · exact absurd (hk.symm.trans hk') (by simp)
            · cases hd
              cases hk.symm.trans hk'
              exact bind_eq_ok_iff.mpr ⟨key, hkey, bind_eq_ok_iff.mpr ⟨value, hvalue, rfl⟩⟩
      · cases depth <;> simp [resolveWithin, hb, hf, hk, eq_comm]

/-- What resolution yields is what the field type stands for. -/
theorem resolves_of_resolveWithin {source : String} {depth : Nat} {type : FieldType}
    {expr : TypeExpr} (h : resolveWithin registry source depth type = .ok expr) :
    Resolves registry type expr := by
  -- the induction is on the depth: the key and the value of a map are resolved one level deeper
  induction depth using Nat.strongRecOn generalizing type expr with
  | ind depth ih =>
    cases type with
    | scalar scalar =>
      rw [resolveWithin] at h
      cases h
      exact .scalar scalar
    | named name =>
      rcases resolveWithin_named_eq_ok_iff.mp h with ⟨text, hb, rfl⟩ | ⟨hb, type, hf, h⟩
      · exact .wellKnown hb
      rcases h with ⟨hk, rfl⟩ | ⟨hk, rfl⟩ | ⟨entry, below, key, value, hk, rfl, hkey, hvalue, rfl⟩
      · exact .enumeration hb hf hk
      · exact .object hb hf hk
      · exact .map hb hf hk (ih below (by omega) hkey) (ih below (by omega) hvalue)

/-! ### Parts of types -/

namespace TypeExpr

/-- A type with the types inside it: the keys and values of maps, at any depth. -/
def parts : TypeExpr → List TypeExpr
  | .map key value => .map key value :: (key.parts ++ value.parts)
  | expr => [expr]

/-- The references in a type are those of its parts. -/
theorem mem_references_iff {expr : TypeExpr} {reference : Reference} :
    reference ∈ expr.references ↔
      .object reference ∈ expr.parts ∨ .enumeration reference ∈ expr.parts := by
  induction expr with
  | builtin text => simp [parts]
  | object target => simp [parts]
  | enumeration target => simp [parts]
  | map key value ihk ihv =>
    simp only [references_map, parts, List.mem_append, List.mem_cons, ihk, ihv, reduceCtorEq,
      false_or]
    exact or_or_or_comm

end TypeExpr

namespace Resolves

/-- Every part of a type is what some field type stands for. -/
theorem exists_of_mem_parts {type : FieldType} {expr part : TypeExpr}
    (h : Resolves registry type expr) (hp : part ∈ expr.parts) :
    ∃ inner, Resolves registry inner part := by
  induction h with
  | scalar scalar =>
    obtain rfl := List.mem_singleton.mp hp
    exact ⟨_, .scalar scalar⟩
  | wellKnown hb =>
    obtain rfl := List.mem_singleton.mp hp
    exact ⟨_, .wellKnown hb⟩
  | enumeration hb hf hk =>
    obtain rfl := List.mem_singleton.mp hp
    exact ⟨_, .enumeration hb hf hk⟩
  | object hb hf hk =>
    obtain rfl := List.mem_singleton.mp hp
    exact ⟨_, .object hb hf hk⟩
  | map hb hf hk hkey hvalue ihk ihv =>
    rcases List.mem_cons.mp hp with rfl | hp
    · exact ⟨_, .map hb hf hk hkey hvalue⟩
    · exact (List.mem_append.mp hp).elim ihk ihv

/-- **Whatever a type refers to is registered** under a name that is not well known, and not as a
map entry. -/
theorem exists_registered_of_mem_references {type : FieldType} {expr : TypeExpr}
    {target : Reference} (h : Resolves registry type expr) (ht : target ∈ expr.references) :
    ∃ name registered, builtin? name = none ∧ registry.find? name = some registered ∧
      (∀ entry, registered.kind ≠ .message (some entry)) ∧ target = registered.reference := by
  induction h with
  | scalar scalar => cases ht
  | wellKnown hb => cases ht
  | enumeration hb hf hk => exact ⟨_, _, hb, hf, by simp [hk], List.mem_singleton.mp ht⟩
  | object hb hf hk => exact ⟨_, _, hb, hf, by simp [hk], List.mem_singleton.mp ht⟩
  | map hb hf hk hkey hvalue ihk ihv => exact (List.mem_append.mp ht).elim ihk ihv

end Resolves

/-! ### Modules taken apart -/

theorem File.mem_shownMessages {name : String} {message : Message} :
    (name, message) ∈ file.shownMessages ↔ ⟨name, false, .message message⟩ ∈ file.declarations := by
  rw [File.shownMessages, List.mem_filterMap]
  constructor
  · rintro ⟨⟨other, _ | _, _ | _⟩, hd, h⟩ <;> cases h
    exact hd
  · exact fun hd => ⟨_, hd, rfl⟩

theorem File.mem_shownEnums {name : String} {enum : EnumType} :
    (name, enum) ∈ file.shownEnums ↔ ⟨name, false, .enumeration enum⟩ ∈ file.declarations := by
  rw [File.shownEnums, List.mem_filterMap]
  constructor
  · rintro ⟨⟨other, _ | _, _ | _⟩, hd, h⟩ <;> cases h
    exact hd
  · exact fun hd => ⟨_, hd, rfl⟩

/-- What an object type is made of. -/
theorem Message.objectType_eq_ok_iff {source name : String} {message : Message}
    {object : ObjectType} :
    message.objectType registry options source name = .ok object ↔
      ∃ properties, message.fields.mapM (message.property registry options source) =
          .ok properties ∧
        object = ⟨name, identifier name, properties, message.choicesOf properties⟩ := by
  rw [Message.objectType, bind_eq_ok_iff]
  simp [pure, Except.pure, eq_comm]

/-- An object type is called as its message. -/
theorem Message.protoName_of_objectType {source name : String} {message : Message}
    {object : ObjectType} (h : message.objectType registry options source name = .ok object) :
    object.protoName = name := by
  obtain ⟨properties, -, rfl⟩ := objectType_eq_ok_iff.mp h
  rfl

/-- A property is that of its field when the type of the field resolves. -/
theorem Message.property_eq_ok_iff {source : String} {message : Message} {field : Field}
    {property : Property} :
    message.property registry options source field = .ok property ↔
      ∃ type, resolveType registry source field.type = .ok type ∧
        property = ⟨field.name, field.propertyName options.protoNames, field.number, type,
          field.label = .repeated && !type.isMap, field.explicitPresence,
          message.choiceOf? field⟩ := by
  rw [Message.property, bind_eq_ok_iff]
  simp [pure, Except.pure, eq_comm]

/-- The type of a property is what the type of its field stands for. -/
theorem Message.resolves_of_property {source : String} {message : Message} {field : Field}
    {property : Property} (h : message.property registry options source field = .ok property) :
    Resolves registry field.type property.type := by
  obtain ⟨type, ht, rfl⟩ := property_eq_ok_iff.mp h
  exact resolves_of_resolveWithin ht

/-- The operation of a method whose request, response and path are resolved. -/
def Method.operationOf (registry : Registry) (options : Options) (method : Method)
    (binding : Binding) (request response : TypeExpr) (parameters : List PathTemplate.Parameter) :
    Operation where
  name := method.name
  request
  response
  clientStreaming := method.clientStreaming
  serverStreaming := method.serverStreaming
  call := {
    verb := binding.verb.word
    path := binding.path
    body := bodyOf registry options (registry.find? method.input) binding
    parameters := parameters.map fun parameter =>
      ⟨parameter.template,
        propertyPath registry options (registry.find? method.input) parameter.segments⟩ }

/-- A method has an operation when its request and response resolve and its path is well
formed. -/
theorem Method.operation_eq_ok_iff {source : String} {method : Method} {binding : Binding}
    {operation : Operation} :
    method.operation registry options source binding = .ok operation ↔
      ∃ request response parameters,
        resolveType registry source (.named method.input) = .ok request ∧
        resolveType registry source (.named method.output) = .ok response ∧
        PathTemplate.parameters? binding.path = .ok parameters ∧
        operation = method.operationOf registry options binding request response parameters := by
  rw [Method.operation, bind_eq_ok_iff]
  constructor
  · rintro ⟨request, hq, h⟩
    obtain ⟨response, hr, h⟩ := bind_eq_ok_iff.mp h
    cases hp : PathTemplate.parameters? binding.path with
    | error reason =>
      simp only [hp] at h
      cases h
    | ok parameters =>
      simp only [hp] at h
      cases h
      exact ⟨request, response, parameters, hq, hr, rfl, rfl⟩
  · rintro ⟨request, response, parameters, hq, hr, hp, rfl⟩
    refine ⟨request, hq, bind_eq_ok_iff.mpr ⟨response, hr, ?_⟩⟩
    simp only [hp]
    rfl

/-- A service has a client when each of its bound methods has an operation. -/
theorem Service.client_eq_ok_iff {source package : String} {service : Service} {client : Client} :
    service.client registry options source package = .ok client ↔
      ∃ operations, service.boundMethods.mapM (fun (method, binding) =>
          method.operation registry options source binding) = .ok operations ∧
        client = ⟨qualify package service.name, identifier (qualify package service.name),
          operations, (service.methods.filter (·.binding.isNone)).map Method.name⟩ := by
  rw [Service.client, bind_eq_ok_iff]
  simp [pure, Except.pure, eq_comm]

/-- Whether some method of the service is bound to HTTP. -/
def Service.isCallable (service : Service) : Bool :=
  !service.boundMethods.isEmpty

/-- Whether some method of the file is bound to HTTP. -/
def File.isCallable (file : File) : Bool :=
  file.services.any Service.isCallable

/-- A client has operations when its service has bound methods. -/
theorem Service.isCallable_of_client {source package : String} {service : Service}
    {client : Client} (h : service.client registry options source package = .ok client) :
    client.isCallable = service.isCallable := by
  obtain ⟨operations, hops, rfl⟩ := Service.client_eq_ok_iff.mp h
  have hl := (mapM_eq_ok_iff.mp hops).length_eq
  refine congrArg Bool.not (Bool.eq_iff_iff.mpr ?_)
  rw [List.isEmpty_iff_length_eq_zero, List.isEmpty_iff_length_eq_zero, hl]

namespace ClientModule

/-- The module of a file that is made of given object types and clients. -/
def ofParts (options : Options) (file : File) (objects : List ObjectType)
    (clients : List Client) : ClientModule where
  name := file.name
  package := file.package
  output := outputPath file.name
  objects
  enums := file.shownEnums.map fun (name, enum) => enum.stringEnum name
  clients
  imports := importsOf file.name (outputPath file.name) (referencesOf objects clients)
  fetch :=
    if clients.any Client.isCallable then some (specifier (outputPath file.name) options.fetchPath)
    else none
  stylingCheck := options.stylingCheck

/-- **A file has a module** when its shown messages and its services resolve, and is then made of
what they resolve to. -/
theorem ofFile?_eq_ok_iff :
    ofFile? registry options file = .ok module ↔
      ∃ objects clients,
        file.shownMessages.mapM (fun (name, message) =>
          message.objectType registry options file.name name) = .ok objects ∧
        file.services.mapM (·.client registry options file.name file.package) = .ok clients ∧
        module = ofParts options file objects clients := by
  rw [ofFile?, bind_eq_ok_iff]
  constructor
  · rintro ⟨objects, ho, h⟩
    obtain ⟨clients, hc, h⟩ := bind_eq_ok_iff.mp h
    exact ⟨objects, clients, ho, hc, (Except.ok.inj h).symm⟩
  · rintro ⟨objects, clients, ho, hc, rfl⟩
    exact ⟨objects, ho, bind_eq_ok_iff.mpr ⟨clients, hc, rfl⟩⟩

theorem name_of_ofFile? (h : ofFile? registry options file = .ok module) :
    module.name = file.name := by
  obtain ⟨objects, clients, -, -, rfl⟩ := ofFile?_eq_ok_iff.mp h
  rfl

theorem output_of_ofFile? (h : ofFile? registry options file = .ok module) :
    module.output = outputPath file.name := by
  obtain ⟨objects, clients, -, -, rfl⟩ := ofFile?_eq_ok_iff.mp h
  rfl

/-- A module needs the shared fetch module when its file can be called. -/
theorem needsFetch_of_ofFile? (h : ofFile? registry options file = .ok module) :
    module.needsFetch = file.isCallable := by
  obtain ⟨objects, clients, -, hc, rfl⟩ := ofFile?_eq_ok_iff.mp h
  exact any_of_mapM (fun service client => Service.isCallable_of_client) hc

/-- Every shown message has its object type in the module. -/
theorem exists_object_of_shown (h : ofFile? registry options file = .ok module) {name : String}
    {message : Message} (hs : (name, message) ∈ file.shownMessages) :
    ∃ object ∈ module.objects, object.protoName = name ∧ object.identifier = identifier name := by
  obtain ⟨objects, clients, ho, -, rfl⟩ := ofFile?_eq_ok_iff.mp h
  obtain ⟨object, hm, hobj⟩ := exists_mem_of_mapM ho hs
  obtain ⟨properties, -, rfl⟩ := Message.objectType_eq_ok_iff.mp hobj
  exact ⟨_, hm, rfl, rfl⟩

/-- Every shown enum has its string enum in the module. -/
theorem exists_enum_of_shown (h : ofFile? registry options file = .ok module) {name : String}
    {enum : EnumType} (hs : (name, enum) ∈ file.shownEnums) :
    ∃ shown ∈ module.enums, shown.protoName = name ∧ shown.identifier = identifier name := by
  obtain ⟨objects, clients, -, -, rfl⟩ := ofFile?_eq_ok_iff.mp h
  exact ⟨_, List.mem_map_of_mem hs, rfl, rfl⟩

/-- **The types that occur in a module**: those of its properties, and the requests and responses
of its operations. -/
def types (module : ClientModule) : List TypeExpr :=
  module.objects.flatMap (fun object => object.properties.map Property.type) ++
    module.clients.flatMap fun client =>
      client.operations.flatMap fun operation => [operation.request, operation.response]

/-- The references that imports are made from are those in the types of the module. -/
theorem referencesOf_eq (module : ClientModule) :
    referencesOf module.objects module.clients = module.types.flatMap TypeExpr.references := by
  simp [referencesOf, types, List.flatMap_assoc, List.flatMap_map]

/-- **Every type in a module comes from resolution.** -/
theorem exists_resolves_of_mem_types (h : ofFile? registry options file = .ok module)
    {expr : TypeExpr} (he : expr ∈ module.types) : ∃ type, Resolves registry type expr := by
  obtain ⟨objects, clients, ho, hc, rfl⟩ := ofFile?_eq_ok_iff.mp h
  rw [types, List.mem_append, List.mem_flatMap, List.mem_flatMap] at he
  rcases he with ⟨object, hobj, hp⟩ | ⟨client, hcl, hop⟩
  · obtain ⟨⟨name, message⟩, -, hobj⟩ := exists_of_mem_of_mapM ho hobj
    obtain ⟨properties, hprops, rfl⟩ := Message.objectType_eq_ok_iff.mp hobj
    obtain ⟨property, hprop, rfl⟩ := List.mem_map.mp hp
    obtain ⟨field, -, hfield⟩ := exists_of_mem_of_mapM hprops hprop
    exact ⟨_, Message.resolves_of_property hfield⟩
  · obtain ⟨service, -, hclient⟩ := exists_of_mem_of_mapM hc hcl
    obtain ⟨operations, hops, rfl⟩ := Service.client_eq_ok_iff.mp hclient
    obtain ⟨operation, hm, hexpr⟩ := List.mem_flatMap.mp hop
    obtain ⟨⟨method, binding⟩, -, hmethod⟩ := exists_of_mem_of_mapM hops hm
    obtain ⟨request, response, parameters, hq, hr, -, rfl⟩ :=
      Method.operation_eq_ok_iff.mp hmethod
    rcases List.mem_cons.mp hexpr with rfl | hexpr
    · exact ⟨_, resolves_of_resolveWithin hq⟩
    · obtain rfl := List.mem_singleton.mp hexpr
      exact ⟨_, resolves_of_resolveWithin hr⟩

end ClientModule

/-- **A run has modules** when its files are registered and each of them has a module. -/
theorem modulesOf_eq_ok_iff {files : List File} {modules : List ClientModule} :
    modulesOf options files = .ok modules ↔
      ∃ registry, Registry.ofFiles files = .ok registry ∧
        files.mapM (ClientModule.ofFile? registry options) = .ok modules := by
  rw [modulesOf, bind_eq_ok_iff]
  simp only [mapError_eq_ok_iff]

/-- What is seen of the module of one file, when all files are registered, is seen of a module that
the file has. -/
theorem exists_module_of_map {β : Type} {files : List File} {file : File} {f : ClientModule → β}
    {b : β} (h : ((Registry.ofFiles files).mapError .fault >>= fun registry =>
      (ClientModule.ofFile? registry options file).map f) = .ok b) :
    ∃ registry module, Registry.ofFiles files = .ok registry ∧
      ClientModule.ofFile? registry options file = .ok module ∧ f module = b := by
  obtain ⟨registry, hreg, hmap⟩ := bind_eq_ok_iff.mp h
  obtain ⟨module, hmodule, hf⟩ := map_eq_ok_iff.mp hmap
  exact ⟨registry, module, mapError_eq_ok_iff.mp hreg, hmodule, hf⟩

/-- The modules of a run are named after its files, in order. -/
theorem names_of_modulesOf {files : List File} {modules : List ClientModule}
    (h : modulesOf options files = .ok modules) :
    modules.map ClientModule.name = files.map File.name := by
  obtain ⟨registry, -, hm⟩ := modulesOf_eq_ok_iff.mp h
  exact map_of_mapM (fun file module => ClientModule.name_of_ofFile?) hm

/-- Every module of a run is written to the output path of its file. -/
theorem output_of_mem_modulesOf {files : List File} {modules : List ClientModule}
    (h : modulesOf options files = .ok modules) (hm : module ∈ modules) :
    module.output = outputPath module.name := by
  obtain ⟨registry, -, hok⟩ := modulesOf_eq_ok_iff.mp h
  obtain ⟨file, -, hfile⟩ := exists_of_mem_of_mapM hok hm
  rw [ClientModule.output_of_ofFile? hfile, ClientModule.name_of_ofFile? hfile]

end ProtoClient
