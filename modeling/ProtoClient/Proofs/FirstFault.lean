import ProtoClient.Proofs.Expansion
import ProtoClient.Proofs.Generation

/-!
# The first fault

A file demands that the types it uses are known and that the templates of its bound methods are
well formed. Its demands have an order: the fields of a message come before the messages nested in
it, all messages come before the services, and of a method its input, its output and its template.
A run whose types can be registered has modules when the demands of all its files are met, and
otherwise fails with the fault of the first demand that is not.

## Main definitions

* `Message.usedTypes message`: the types of the fields that are shown of a message
* `Demand`, `File.demands file`: what a file demands, in order
* `Demand.IsMet registry demand`: the registered types meet the demand
* `Demand.fault? registry names source demand`: the fault of a demand that is not met

## Main results

* `File.flatMap_shownMessages`: the messages that are shown use the types of the walk through them
* `failure?_modulesOf`: a run whose types are registered fails at the first demand that cannot be
  resolved
* `modulesOf_outcome`: a run has modules when all demands are met, and otherwise the fault of the
  first that is not
-/

namespace ProtoClient

variable {registry : Registry} {options : Options} {source : String} {files : List File}

/-! ### What a file demands -/

mutual

/-- **The types of the fields that are shown of a message**: its own, and then those of the messages
nested in it. An entry message shows nothing, and neither do the messages nested in one. -/
def Message.usedTypes : Message → List FieldType
  | ⟨_, fields, nested, _, _, isEntry⟩ =>
    if isEntry then [] else fields.map Field.type ++ Message.listUsedTypes nested

/-- The types of the fields that are shown of several messages. -/
def Message.listUsedTypes : List Message → List FieldType
  | [] => []
  | message :: rest => message.usedTypes ++ Message.listUsedTypes rest

end

/-- **What a file demands**: that a type is known, or that the path template of a method is well
formed. -/
inductive Demand
  | known (type : FieldType)
  | template (method path : String)
  deriving DecidableEq, Repr

/-- What a method with an HTTP rule demands. -/
def Method.demands (method : Method) (binding : Binding) : List Demand :=
  [.known (.named method.input), .known (.named method.output),
    .template method.name binding.path]

/-- What a service demands: methods without an HTTP rule demand nothing. -/
def Service.demands (service : Service) : List Demand :=
  service.boundMethods.flatMap fun (method, binding) => method.demands binding

/-- **What a file demands**, its messages before its services. -/
def File.demands (file : File) : List Demand :=
  (Message.listUsedTypes file.messages).map .known ++ file.services.flatMap Service.demands

/-- **A demand is met** by the registered types: all names that the type expands to are known, or
the template has parameters. -/
def Demand.IsMet (registry : Registry) : Demand → Prop
  | .known type => ∃ names, Expands registry type names ∧ ∀ name ∈ names, registry.Knows name
  | .template _ path => ∃ parameters, PathTemplate.parameters? path = .ok parameters

/-- The fault of a malformed template. -/
def templateFault? (source method path : String) : Option Fault :=
  (failure? (PathTemplate.parameters? path)).map (.malformedPath source method path)

/-- **The fault of a demand that is not met**, where `names` are the names that types expand to:
that of the first name that is not known, or that of the template. -/
def Demand.fault? (registry : Registry) (names : FieldType → List String) (source : String) :
    Demand → Option Fault
  | .known type => (names type).findSome? (registry.missing? source)
  | .template method path => templateFault? source method path

/-- A demand has no fault when it is met. -/
theorem Demand.fault?_eq_none_iff {names : FieldType → List String}
    (hnames : ∀ type, Expands registry type (names type)) {demand : Demand} :
    demand.fault? registry names source = none ↔ demand.IsMet registry := by
  cases demand with
  | known type =>
    simp only [fault?, IsMet, List.findSome?_eq_none_iff, Registry.missing?_eq_none_iff]
    constructor
    · exact fun h => ⟨names type, hnames type, h⟩
    · rintro ⟨others, hothers, h⟩
      rwa [(hnames type).unique hothers]
  | template method path =>
    rw [fault?, templateFault?, IsMet, Option.map_eq_none_iff, failure?_eq_none_iff]

/-! ### The messages of a file -/

theorem Message.listUsedTypes_eq_flatMap (messages : List Message) :
    Message.listUsedTypes messages = messages.flatMap Message.usedTypes := by
  induction messages with
  | nil => rfl
  | cons message rest ih => rw [Message.listUsedTypes, ih, List.flatMap_cons]

theorem Message.usedTypes_eq (message : Message) :
    message.usedTypes = if message.isEntry then [] else
      message.fields.map Field.type ++ message.nested.flatMap Message.usedTypes := by
  rw [← Message.listUsedTypes_eq_flatMap]
  cases message
  rfl

/-- The types of the fields that a declaration shows. -/
def Declaration.shownTypes : Declaration → List FieldType
  | ⟨_, false, .message message⟩ => message.fields.map Field.type
  | _ => []

/-- Enums have no fields. -/
theorem EnumType.shownTypes_declarations (scope : String) (inlined : Bool) (enums : List EnumType) :
    (EnumType.declarations scope inlined enums).flatMap Declaration.shownTypes = [] := by
  simp [EnumType.declarations, Declaration.shownTypes]

/-- The walk through a message shows the types that the message uses, unless it stands in an entry
message. -/
theorem Message.shownTypes_declarations (message : Message) (scope : String) (inlined : Bool) :
    (message.declarations scope inlined).flatMap Declaration.shownTypes =
      if inlined then [] else message.usedTypes := by
  -- the induction is on the messages nested in it, which are hidden where it is an entry message
  induction message using Message.induction generalizing scope inlined with
  | step message ih =>
    have hnested (scope : String) (hidden : Bool) :
        (message.nested.flatMap (·.declarations scope hidden)).flatMap Declaration.shownTypes =
          if hidden then [] else message.nested.flatMap Message.usedTypes := by
      rw [List.flatMap_assoc, List.flatMap_congr fun inner hinner => ih inner hinner scope hidden]
      cases hidden <;> simp
    rw [message.declarations_eq, List.flatMap_cons, List.flatMap_append, hnested,
      EnumType.shownTypes_declarations, message.usedTypes_eq]
    cases inlined <;> cases message.isEntry <;> simp [Declaration.shownTypes]

/-- **The shown messages use the types that the walk through the messages lists.** -/
theorem File.flatMap_shownMessages (file : File) :
    file.shownMessages.flatMap (fun (_, message) => message.fields.map Field.type) =
      Message.listUsedTypes file.messages := by
  have hdeclarations : file.shownMessages.flatMap
      (fun (_, message) => message.fields.map Field.type) =
        file.declarations.flatMap Declaration.shownTypes := by
    rw [shownMessages, List.filterMap_eq_flatMap_toList, List.flatMap_assoc]
    refine List.flatMap_congr fun declaration _ => ?_
    obtain ⟨name, _ | _, _ | _⟩ := declaration <;> simp [Declaration.shownTypes]
  rw [hdeclarations, declarations, List.flatMap_append, EnumType.shownTypes_declarations,
    Message.listDeclarations_eq_flatMap, List.flatMap_assoc, List.append_nil,
    Message.listUsedTypes_eq_flatMap]
  exact List.flatMap_congr fun message _ => message.shownTypes_declarations file.package false

/-! ### Where a run fails -/

/-- Why the resolution of a demand has no result. -/
def Demand.failure? (registry : Registry) (source : String) : Demand → Option NoResult
  | .known type => ProtoClient.failure? (resolveType registry source type)
  | .template method path => (templateFault? source method path).map .fault

/-- A message fails at the first of its fields whose type cannot be resolved. -/
theorem Message.failure?_objectType (message : Message) (name : String) :
    failure? (message.objectType registry options source name) =
      (message.fields.map Field.type).findSome? fun type =>
        failure? (resolveType registry source type) := by
  have hproperty (field : Field) :
      failure? (message.property registry options source field) =
        failure? (resolveType registry source field.type) := by
    rw [property, failure?_bind_of_forall fun _ => rfl]
  rw [objectType, failure?_bind_of_forall fun _ => rfl, failure?_mapM,
    List.findSome?_map]
  exact congrArg (List.findSome? · message.fields) (funext hproperty)

/-- A method fails at the first of its demands. -/
theorem Method.failure?_operation (method : Method) (binding : Binding) :
    failure? (method.operation registry options source binding) =
      (method.demands binding).findSome? (Demand.failure? registry source) := by
  have hsteps : failure? (method.operation registry options source binding) =
      (failure? (resolveType registry source (.named method.input))).or
        ((failure? (resolveType registry source (.named method.output))).or
          ((templateFault? source method.name binding.path).map .fault)) := by
    refine failure?_bind fun request _ => failure?_bind fun response _ => ?_
    rw [templateFault?]
    cases PathTemplate.parameters? binding.path <;> rfl
  rw [hsteps, demands, List.findSome?_cons, List.findSome?_cons, List.findSome?_singleton]
  simp only [Demand.failure?]
  cases failure? (resolveType registry source (.named method.input)) <;>
    cases failure? (resolveType registry source (.named method.output)) <;> rfl

/-- A service fails at the first of its demands. -/
theorem Service.failure?_client (service : Service) (package : String) :
    failure? (service.client registry options source package) =
      service.demands.findSome? (Demand.failure? registry source) := by
  rw [client, failure?_bind_of_forall fun _ => rfl, failure?_mapM, demands,
    findSome?_flatMap]
  exact congrArg (List.findSome? · service.boundMethods)
    (funext fun bound => bound.1.failure?_operation bound.2)

/-- A file fails at the first of its demands. -/
theorem failure?_ofFile? (file : File) :
    failure? (ClientModule.ofFile? registry options file) =
      file.demands.findSome? (Demand.failure? registry file.name) := by
  have hsteps : failure? (ClientModule.ofFile? registry options file) =
      (failure? (file.shownMessages.mapM fun (name, message) =>
        message.objectType registry options file.name name)).or
      (failure? (file.services.mapM (·.client registry options file.name file.package))) := by
    exact failure?_bind fun objects _ => failure?_bind_of_forall fun clients => rfl
  have hmessages : failure? (file.shownMessages.mapM fun (name, message) =>
      message.objectType registry options file.name name) =
      ((Message.listUsedTypes file.messages).map Demand.known).findSome?
        (Demand.failure? registry file.name) := by
    rw [failure?_mapM, List.findSome?_map, ← File.flatMap_shownMessages, findSome?_flatMap]
    exact congrArg (List.findSome? · file.shownMessages)
      (funext fun (name, message) => message.failure?_objectType name)
  rw [hsteps, hmessages, failure?_mapM, File.demands, List.findSome?_append, findSome?_flatMap]
  refine congrArg _ (congrArg (List.findSome? · file.services) (funext fun service => ?_))
  exact service.failure?_client file.package

/-- **A run whose types are registered fails at the first demand, of the first file, that cannot be
resolved.** -/
theorem failure?_modulesOf (h : Registry.ofFiles files = .ok registry) :
    failure? (modulesOf options files) =
      files.findSome? fun file => file.demands.findSome? (Demand.failure? registry file.name) := by
  rw [modulesOf, h]
  exact (failure?_mapM _ files).trans
    (congrArg (List.findSome? · files) (funext failure?_ofFile?))

/-- Where no map entry leads back to itself, all types expand to names, and the resolution of a
demand fails with the fault of the first name that is not known. -/
theorem Registry.Acyclic.exists_names (h : registry.Acyclic) :
    ∃ names, (∀ type, Expands registry type (names type)) ∧
      ∀ source demand, Demand.failure? registry source demand =
        (demand.fault? registry names source).map .fault := by
  choose names hexpands hfailure using fun type => exists_expands_resolveType (h.unwinds type)
  refine ⟨names, hexpands, fun source demand => ?_⟩
  cases demand with
  | known type => exact hfailure type source
  | template method path => rfl

/-- **A run has modules when its types can be registered and the demands of all its files are met,
and otherwise fails with the first fault**, provided that no map entry leads back to itself: with
that of the registration, or else with that of the first demand, of the first file, that is not
met. It does come to an end. -/
theorem modulesOf_outcome (options : Options)
    (hacyclic : ∀ registry, Registry.ofFiles files = .ok registry → registry.Acyclic) :
    ((∃ modules, modulesOf options files = .ok modules) ↔
      ∃ registry, Registry.ofFiles files = .ok registry ∧
        ∀ file ∈ files, ∀ demand ∈ file.demands, demand.IsMet registry) ∧
    (∀ fault, Registry.ofFiles files = .error fault →
      modulesOf options files = .error (.fault fault)) ∧
    (∀ registry, Registry.ofFiles files = .ok registry →
      ∃ names, (∀ type, Expands registry type (names type)) ∧
        ∀ fault, modulesOf options files = .error (.fault fault) ↔
          (files.findSome? fun file =>
            file.demands.findSome? (Demand.fault? registry names file.name)) = some fault) ∧
    modulesOf options files ≠ .error .endless := by
  cases hreg : Registry.ofFiles files with
  | error fault =>
    have hrun : modulesOf options files = .error (.fault fault) := by
      rw [modulesOf, hreg]
      rfl
    refine ⟨⟨?_, ?_⟩, ?_, ?_, ?_⟩
    · rintro ⟨modules, hmodules⟩
      cases hrun.symm.trans hmodules
    · rintro ⟨_, hok, -⟩
      cases hok
    · rintro _ ⟨⟩
      exact hrun
    · rintro _ ⟨⟩
    · rw [hrun]
      simp
  | ok registry =>
    obtain ⟨names, hnames, hfaults⟩ := (hacyclic registry hreg).exists_names
    have hrun : failure? (modulesOf options files) = (files.findSome? fun file =>
        file.demands.findSome? (Demand.fault? registry names file.name)).map .fault := by
      rw [failure?_modulesOf hreg, List.map_findSome?]
      refine congrArg (List.findSome? · files) (funext fun file => ?_)
      rw [Function.comp_apply, List.map_findSome?]
      exact congrArg (List.findSome? · file.demands) (funext (hfaults file.name))
    refine ⟨?_, ?_, ?_, ?_⟩
    · rw [← failure?_eq_none_iff, hrun, Option.map_eq_none_iff]
      simp only [List.findSome?_eq_none_iff, Demand.fault?_eq_none_iff hnames]
      simp
    · rintro _ ⟨⟩
    · rintro _ ⟨⟩
      exact ⟨names, hnames, fun fault => by
        rw [← failure?_eq_some_iff, hrun, NoResult.map_fault_eq_some_iff]⟩
    · rw [Ne, ← failure?_eq_some_iff, hrun]
      exact NoResult.map_fault_ne_endless _

/-- A cart without the file of its items fails at the value of its first field, which is a map. -/
theorem modulesOf_outcome_cart :
    (∀ registry, Registry.ofFiles [Sample.cart] = .ok registry → registry.Acyclic) ∧
      modulesOf {} [Sample.cart] =
        .error (.fault (.unknownType "shop/cart/cart.proto" "shop.Item")) := by
  have hacyclic : ∀ registry, Registry.ofFiles [Sample.cart] = .ok registry → registry.Acyclic :=
    Registry.acyclic_of_map_isFlat (by decide +kernel)
  obtain ⟨registry, hreg⟩ : ∃ registry, Registry.ofFiles [Sample.cart] = .ok registry :=
    exists_of_isOk (by decide +kernel)
  have hlook : (Registry.ofFiles [Sample.cart]).map (fun registry =>
      (registry.entry? (withoutDot ".shop.cart.Cart.ItemsEntry"),
        registry.entry? (withoutDot ".shop.Item"), decide (registry.Knows ".shop.Item"))) =
      .ok (some ⟨.scalar .string, .named ".shop.Item"⟩, none, false) := by decide +kernel
  rw [hreg] at hlook
  obtain ⟨hentry, hitem, hunknown⟩ : _ ∧ _ ∧ _ := by simpa [Except.map] using hlook
  obtain ⟨names, hnames, hfault⟩ := (modulesOf_outcome {} hacyclic).2.2.1 registry hreg
  have hitems : names (.named ".shop.cart.Cart.ItemsEntry") =
      [".shop.cart.Cart.ItemsEntry", ".shop.Item"] :=
    (hnames _).unique (.entry hentry (.scalar _) (.plain hitem))
  refine ⟨hacyclic, (hfault _).mpr ?_⟩
  have hdemands : Sample.cart.demands = .known (.named ".shop.cart.Cart.ItemsEntry") ::
      Sample.cart.demands.tail := rfl
  have hknown : registry.Knows ".shop.cart.Cart.ItemsEntry" := Registry.knows_of_entry? hentry
  have hmissing : registry.missing? Sample.cart.name ".shop.Item" =
      some (.unknownType "shop/cart/cart.proto" "shop.Item") := by
    rw [Registry.missing?, if_neg hunknown]
    decide +kernel
  rw [List.findSome?_singleton, hdemands, List.findSome?_cons, Demand.fault?, hitems,
    List.findSome?_cons, Registry.missing?_eq_none_iff.mpr hknown, List.findSome?_singleton,
    hmissing]

end ProtoClient
