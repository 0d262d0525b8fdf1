import ProtoClient.Proofs.ShownDeclarations

/-!
# Property paths follow the declared types

The names of properties are found in two ways. The object type of a message takes them from the
fields of the message, while a path of proto field names is followed through the registry, from the
request of a method on. Both must agree, or a call would read properties that its request does not
have.

Where a path leads is said by the fields and their types alone. Up to there, the property path has
the properties that are declared; behind it, each name stands for its camel case or for itself.

## Main definitions

* `Registry.Leads registry name segments type`: the fields of these names lead to the type
* `Registry.typeAlong? registry type segments`: the type that they lead to
* `Options.plainName options segment`: what a name stands for that is no declared field
* `IsDeclaredPath registry options modules input segments path`: the path has what is declared
* `SendDeclared registry options files modules`: the parameters and the body of every operation have
  what is declared

## Main results

* `Registry.leads_iff`: a type is led to when following the fields ends at it
* `drop_propertyPath_append`: behind a front, a path goes on from the type that the front leads to
* `map_find?_properties`: a property of an object type is named as the first field of its proto name
* `modulesOf_sendDeclared`: the operations of a run send the properties that are declared
-/

namespace ProtoClient

variable {registry : Registry} {options : Options} {files : List File} {file : File}
  {modules : List ClientModule} {module : ClientModule} {name segment input : String}
  {front segments : List String} {type last : Registered}

/-! ### Where paths lead -/

/-- **The fields of these names lead to the type**, from the type that is registered under a name:
each is the first field of its name, and its type names the next registered type. -/
inductive Registry.Leads (registry : Registry) : String → List String → Registered → Prop
  | here {name : String} {type : Registered} (hfind : registry.find? name = some type) :
    Leads registry name [] type
  | field {name segment next : String} {rest : List String} {type last : Registered}
    {field : Field} (hfind : registry.find? name = some type)
    (hfield : type.field? segment = some field) (hnext : field.type = .named next)
    (hrest : Leads registry next rest last) :
    Leads registry name (segment :: rest) last

/-- The registered type of the field of a name. -/
def Registered.next? (registry : Registry) (segment : String) (type : Registered) :
    Option Registered :=
  match (type.field? segment).map Field.type with
  | some (.named name) => registry.find? name
  | _ => none

theorem Registered.next?_eq_some_iff :
    type.next? registry segment = some last ↔
      ∃ field next, type.field? segment = some field ∧ field.type = .named next ∧
        registry.find? next = some last := by
  rw [next?]
  cases hfield : type.field? segment with
  | none => simp
  | some field => cases htype : field.type <;> simp [htype]

/-- **The type that the fields of these names lead to**, if they lead anywhere. -/
def Registry.typeAlong? (registry : Registry) (type : Option Registered) (segments : List String) :
    Option Registered :=
  segments.foldl (fun type segment => type.bind (·.next? registry segment)) type

@[simp] theorem Registry.typeAlong?_nil (type : Option Registered) :
    registry.typeAlong? type [] = type := rfl

@[simp] theorem Registry.typeAlong?_cons (type : Option Registered) (segment : String)
    (rest : List String) :
    registry.typeAlong? type (segment :: rest) =
      registry.typeAlong? (type.bind (·.next? registry segment)) rest := rfl

/-- Nothing leads on from no type. -/
@[simp] theorem Registry.typeAlong?_none (segments : List String) :
    registry.typeAlong? none segments = none := by
  induction segments with
  | nil => rfl
  | cons segment rest ih => rw [typeAlong?_cons, Option.bind_none, ih]

/-- **A type is led to when following the fields ends at it.** -/
theorem Registry.leads_iff :
    registry.Leads name segments last ↔
      registry.typeAlong? (registry.find? name) segments = some last := by
  constructor
  · intro h
    induction h with
    | here hfind => rw [hfind, typeAlong?_nil]
    | field hfind hfield hnext hrest ih =>
      rw [hfind, typeAlong?_cons, Option.bind_some, Registered.next?, hfield, Option.map_some,
        hnext]
      exact ih
  · intro h
    induction segments generalizing name with
    | nil => exact .here h
    | cons segment rest ih =>
      rw [typeAlong?_cons] at h
      cases hstep : (registry.find? name).bind (·.next? registry segment) with
      | none =>
        rw [hstep, typeAlong?_none] at h
        cases h
      | some type =>
        obtain ⟨first, hfind, hnext?⟩ := Option.bind_eq_some_iff.mp hstep
        obtain ⟨field, next, hfield, hnext, hfind'⟩ := Registered.next?_eq_some_iff.mp hnext?
        rw [hstep, ← hfind'] at h
        exact .field hfind hfield hnext (ih h)

/-! ### Property paths -/

/-- What a name stands for that is no declared field: its camel case, or itself where proto names
are kept. -/
def Options.plainName (options : Options) (segment : String) : String :=
  if options.protoNames then segment else camelCase segment

/-- One step of a property path: the property of the field, and on with the type of that. -/
theorem propertyPath_cons (type : Option Registered) (segment : String) (rest : List String) :
    propertyPath registry options type (segment :: rest) =
      ((type.bind (·.field? segment)).map (·.propertyName options.protoNames)).getD
          (options.plainName segment) ::
        propertyPath registry options (type.bind (·.next? registry segment)) rest := by
  rw [propertyPath]
  cases type with
  | none => rfl
  | some type =>
    rw [Option.bind_some, Option.bind_some, Registered.next?]
    cases hfield : type.field? segment with
    | none => rfl
    | some field => cases htype : field.type <;> simp [htype]

/-- Where there is no type, every name stands for itself or for its camel case. -/
theorem propertyPath_none (segments : List String) :
    propertyPath registry options none segments = segments.map options.plainName := by
  induction segments with
  | nil => rfl
  | cons segment rest ih =>
    rw [propertyPath_cons, Option.bind_none, Option.bind_none, ih]
    rfl

/-- **Behind a front, a property path goes on** from the type that the front leads to. -/
theorem drop_propertyPath_append (type : Option Registered) (front rest : List String) :
    (propertyPath registry options type (front ++ rest)).drop front.length =
      propertyPath registry options (registry.typeAlong? type front) rest := by
  induction front generalizing type with
  | nil => rfl
  | cons segment front ih =>
    rw [List.cons_append, propertyPath_cons, List.length_cons, List.drop_succ_cons, ih,
      Registry.typeAlong?_cons]

/-- Behind a front that leads to a type, the next entry is named as the field of that type. -/
theorem Registry.Leads.getElem?_propertyPath (h : registry.Leads input front type) {field : Field}
    (hfield : type.field? segment = some field) (back : List String) :
    (propertyPath registry options (registry.find? input)
        (front ++ segment :: back))[front.length]? =
      some (field.propertyName options.protoNames) := by
  have hdrop := @drop_propertyPath_append registry options (registry.find? input) front
    (segment :: back)
  rw [leads_iff.mp h, propertyPath_cons, Option.bind_some, hfield] at hdrop
  have hhead := congrArg List.head? hdrop
  rwa [List.head?_drop] at hhead

/-- **Behind a front that leads to no such field**, every name stands for itself or for its camel
case. -/
theorem drop_propertyPath_of_forall
    (h : ∀ type, registry.Leads input front type → type.field? segment = none)
    (back : List String) :
    (propertyPath registry options (registry.find? input) (front ++ segment :: back)).drop
        front.length = (segment :: back).map options.plainName := by
  rw [drop_propertyPath_append]
  cases halong : registry.typeAlong? (registry.find? input) front with
  | none => exact propertyPath_none _
  | some type =>
    have hfield := h type (Registry.leads_iff.mpr halong)
    rw [propertyPath_cons, Option.bind_some, Option.bind_some, Registered.next?, hfield]
    exact congrArg (List.cons _) (propertyPath_none back)

/-! ### What is declared -/

/-- **A property of an object type is named as the first field of its proto name.** -/
theorem Message.map_find?_properties {source name : String} {message : Message}
    {object : ObjectType} (h : message.objectType registry options source name = .ok object)
    (segment : String) :
    (object.properties.find? (·.protoName = segment)).map Property.name =
      (message.fields.find? (·.name = segment)).map (·.propertyName options.protoNames) := by
  obtain ⟨properties, hp, rfl⟩ := Message.objectType_eq_ok_iff.mp h
  have hnames : properties.map (fun property => (property.protoName, property.name)) =
      message.fields.map fun field => (field.name, field.propertyName options.protoNames) := by
    apply map_of_mapM _ hp
    intro field property hproperty
    obtain ⟨type, -, rfl⟩ := property_eq_ok_iff.mp hproperty
    rfl
  have hfind := congrArg (fun names => (names.find? (·.1 = segment)).map Prod.snd) hnames
  simp only [List.find?_map, Option.map_map] at hfind
  exact hfind

/-- A type that is led to is registered under its own name. -/
theorem Registry.Leads.get?_name (hreg : Registry.ofFiles files = .ok registry)
    (h : registry.Leads input segments last) : registry.get? last.name = some last := by
  have hholds := Registry.ofFiles_eq_ok_iff.mp hreg
  induction h with
  | here hfind => exact hholds.get?_iff.mpr ⟨(hholds.get?_iff.mp hfind).1, rfl⟩
  | field hfind hfield hnext hrest ih => exact ih

/-- **The path has what is declared**: where the path leads to a declared field, the property that
any object type of its message has for it; and from a name on that is no declared field, what each
name stands for by itself. -/
structure IsDeclaredPath (registry : Registry) (options : Options) (modules : List ClientModule)
    (input : String) (segments path : List String) : Prop where
  length : path.length = segments.length
  declared : ∀ front segment back, segments = front ++ segment :: back →
    ∀ type field, registry.Leads input front type → type.field? segment = some field →
      ∀ module ∈ modules, ∀ object ∈ module.objects, object.protoName = type.name →
        ∃ property, object.properties.find? (·.protoName = segment) = some property ∧
          path[front.length]? = some property.name
  undeclared : ∀ front segment back, segments = front ++ segment :: back →
    (∀ type, registry.Leads input front type → type.field? segment = none) →
      path.drop front.length = (segment :: back).map options.plainName

/-! ### What operations send -/

/-- **An operation sends properties that are declared**: those that its path template and its body
name, in the request of the method. -/
structure Operation.SendsDeclared (registry : Registry) (options : Options)
    (modules : List ClientModule) (method : Method) (binding : Binding) (operation : Operation) :
    Prop where
  parameters : ∃ parameters, PathTemplate.parameters? binding.path = .ok parameters ∧
    List.Forall₂ (fun parameter resolved => resolved.template = parameter.template ∧
      IsDeclaredPath registry options modules method.input parameter.segments resolved.path)
      parameters operation.call.parameters
  body : ∀ segment, binding.body = some segment → segment ≠ "" → segment ≠ "*" →
    ∃ entry, operation.call.body = some entry ∧
      IsDeclaredPath registry options modules method.input [segment] [entry]

/-- The body of one property is the only entry of its property path. -/
theorem propertyPath_of_bodyOf (registry : Registry) (options : Options) (type : Option Registered)
    {binding : Binding} (hbody : binding.body = some segment) (hempty : segment ≠ "")
    (hstar : segment ≠ "*") :
    ∃ entry, bodyOf registry options type binding = some entry ∧
      propertyPath registry options type [segment] = [entry] := by
  obtain ⟨entry, hentry⟩ := List.length_eq_one_iff.mp
    (propertyPath_length registry options type [segment])
  refine ⟨entry, ?_, hentry⟩
  rw [bodyOf, hbody]
  dsimp only
  rw [if_neg hempty, if_neg hstar, hentry, String.join_cons, String.join_nil, String.append_empty]

section Run

variable (hreg : Registry.ofFiles files = .ok registry)
  (hmods : files.mapM (ClientModule.ofFile? registry options) = .ok modules)

include hreg hmods

/-- **An object type of a run declares the fields of the registered type of its name.** -/
theorem map_find?_properties (hm : module ∈ modules) {object : ObjectType}
    (ho : object ∈ module.objects) (hget : registry.get? object.protoName = some type)
    (segment : String) :
    (object.properties.find? (·.protoName = segment)).map Property.name =
      (type.field? segment).map (·.propertyName options.protoNames) := by
  obtain ⟨file, hf, hfile⟩ := exists_of_mem_of_mapM hmods hm
  obtain ⟨objects, clients, hobjects, -, rfl⟩ := ClientModule.ofFile?_eq_ok_iff.mp hfile
  obtain ⟨⟨shown, message⟩, hshown, hobject⟩ := exists_of_mem_of_mapM hobjects ho
  rw [Message.protoName_of_objectType hobject,
    get?_of_mem_declarations hreg hf (File.mem_shownMessages.mp hshown)] at hget
  cases hget
  exact Message.map_find?_properties hobject segment

/-- **A property path has what is declared.** -/
theorem isDeclaredPath_propertyPath (input : String) (segments : List String) :
    IsDeclaredPath registry options modules input segments
      (propertyPath registry options (registry.find? input) segments) := by
  constructor
  case length => exact propertyPath_length ..
  case declared =>
    rintro front segment back rfl type field hleads hfield module hm object ho hname
    have hget : registry.get? object.protoName = some type := by
      rw [hname]
      exact hleads.get?_name hreg
    have hfind := map_find?_properties hreg hmods hm ho hget segment
    rw [hfield, Option.map_some, Option.map_eq_some_iff] at hfind
    obtain ⟨property, hproperty, hpropertyName⟩ := hfind
    refine ⟨property, hproperty, ?_⟩
    rw [hleads.getElem?_propertyPath hfield, hpropertyName]
  case undeclared =>
    rintro front segment back rfl hnone
    exact drop_propertyPath_of_forall hnone back

/-- The operation of a method sends properties that are declared. -/
theorem sendsDeclared_of_operation {source : String} {method : Method} {binding : Binding}
    {operation : Operation} (h : method.operation registry options source binding = .ok operation) :
    operation.SendsDeclared registry options modules method binding := by
  obtain ⟨request, response, parameters, -, -, hparameters, rfl⟩ :=
    Method.operation_eq_ok_iff.mp h
  constructor
  case parameters =>
    refine ⟨parameters, hparameters, ?_⟩
    refine List.forall₂_map_right_iff.mpr (List.forall₂_same.mpr fun parameter _ => ⟨rfl, ?_⟩)
    exact isDeclaredPath_propertyPath hreg hmods method.input parameter.segments
  case body =>
    intro segment hbody hempty hstar
    obtain ⟨entry, hentry, hpath⟩ :=
      propertyPath_of_bodyOf registry options (registry.find? method.input) hbody hempty hstar
    refine ⟨entry, hentry, ?_⟩
    rw [← hpath]
    exact isDeclaredPath_propertyPath hreg hmods method.input [segment]

end Run

/-- The operations of all modules send properties that are declared: those of every bound method of
every service of every file, in order. -/
def SendDeclared (registry : Registry) (options : Options) (files : List File)
    (modules : List ClientModule) : Prop :=
  List.Forall₂ (fun file module =>
    List.Forall₂ (fun service client =>
      List.Forall₂ (fun (method, binding) operation =>
        operation.SendsDeclared registry options modules method binding)
        (Service.boundMethods service) (Client.operations client))
      (File.services file) (ClientModule.clients module))
    files modules

/-- **The operations of a run send the properties that are declared.** -/
theorem modulesOf_sendDeclared (hok : modulesOf options files = .ok modules) :
    ∃ registry, Registry.ofFiles files = .ok registry ∧
      SendDeclared registry options files modules := by
  obtain ⟨registry, hreg, hmods⟩ := modulesOf_eq_ok_iff.mp hok
  refine ⟨registry, hreg, forall₂_of_mapM (fun file _ module hfile => ?_) hmods⟩
  obtain ⟨objects, clients, -, hclients, rfl⟩ := ClientModule.ofFile?_eq_ok_iff.mp hfile
  refine forall₂_of_mapM (fun service _ client hclient => ?_) hclients
  obtain ⟨operations, hoperations, rfl⟩ := Service.client_eq_ok_iff.mp hclient
  refine forall₂_of_mapM (fun (method, binding) _ operation hoperation => ?_) hoperations
  exact sendsDeclared_of_operation hreg hmods hoperation

namespace Sample

/-- A shelf with a name of its own for its code, and with a map. -/
def shelf : File where
  name := "store/shelf.proto"
  package := "store"
  dependencies := []
  messages := [⟨"Shelf", [
      ⟨"shelf_code", 1, some "code", .optional, .scalar .string, none, false⟩,
      ⟨"labels", 2, none, .repeated, .named ".store.Shelf.LabelsEntry", none, false⟩],
    [⟨"LabelsEntry", [⟨"key", 1, none, .optional, .scalar .string, none, false⟩,
      ⟨"value", 2, none, .optional, .scalar .string, none, false⟩], [], [], [], true⟩],
    [], [], false⟩]
  enums := []
  services := []

/-- A service whose path leads to the shelf, into its map, and to fields that nothing declares. -/
def stock : File where
  name := "store/v1/stock.proto"
  package := "store.v1"
  dependencies := ["store/shelf.proto"]
  messages := [⟨"UpdateRequest", [
      ⟨"item_id", 1, some "id", .optional, .scalar .string, none, false⟩,
      ⟨"item_body", 2, some "payload", .optional, .scalar .string, none, false⟩,
      ⟨"shelf", 3, some "rack", .optional, .named ".store.Shelf", none, false⟩],
    [], [], [], false⟩]
  enums := []
  services := [⟨"Stock", [⟨"Update", ".store.v1.UpdateRequest", ".store.Shelf", false, false,
    some ⟨.post, "/\x7bitem_id\x7d/\x7bshelf.shelf_code\x7d/\x7bshelf.labels.first_key\x7d/" ++
      "\x7bunknown_field.item_id\x7d", some "item_body"⟩⟩]⟩]

end Sample

/-- The parameters and the body of the sample have the names that its messages ask for, as far as
they are declared. -/
theorem modulesOf_sendDeclared_stock :
    ∃ modules registry, modulesOf {} [Sample.shelf, Sample.stock] = .ok modules ∧
      (modules.map fun module => module.objects.map fun object =>
        object.properties.map Property.name) = [[["code", "labels"]], [["id", "payload", "rack"]]] ∧
      (modules.flatMap ClientModule.clients |>.flatMap Client.operations |>.map fun operation =>
        (operation.call.parameters.map PathParameter.path, operation.call.body)) =
          [([["id"], ["rack", "code"], ["rack", "labels", "firstKey"],
            ["unknownField", "itemId"]], some "payload")] ∧
      Registry.ofFiles [Sample.shelf, Sample.stock] = .ok registry ∧
      SendDeclared registry {} [Sample.shelf, Sample.stock] modules := by
  have hrun : ((modulesOf {} [Sample.shelf, Sample.stock]).map fun modules =>
      (modules.map fun module => module.objects.map fun object =>
          object.properties.map Property.name,
        modules.flatMap ClientModule.clients |>.flatMap Client.operations |>.map fun operation =>
          (operation.call.parameters.map PathParameter.path, operation.call.body))) =
      .ok ([[["code", "labels"]], [["id", "payload", "rack"]]],
        [([["id"], ["rack", "code"], ["rack", "labels", "firstKey"],
          ["unknownField", "itemId"]], some "payload")]) := by decide +kernel
  obtain ⟨modules, hok, hmodules⟩ := map_eq_ok_iff.mp hrun
  obtain ⟨hobjects, hcalls⟩ := Prod.mk.inj hmodules
  obtain ⟨registry, hreg, hsend⟩ := modulesOf_sendDeclared hok
  exact ⟨modules, registry, hok, hobjects, hcalls, hreg, hsend⟩

end ProtoClient
