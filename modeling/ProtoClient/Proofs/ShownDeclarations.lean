import ProtoClient.Proofs.BoundNames
import ProtoClient.Proofs.Indexing

/-!
# What modules declare, and what is registered

The registry takes in every declaration of a file, at any depth. The module of the file has an
object type for each of its messages and a string enum for each of its enums, but leaves out the
messages that stand for map entries, together with whatever is nested in one. So the two walks
differ by whole subtrees, and must call what they share by the same names.

Where a declaration stands is said without either walk, by the messages around it; and the order in
which a module declares is said by a recursion of its own, which does not enter entry messages.

## Main definitions

* `File.Places file around name declared`: the file declares `declared` inside the messages `around`
* `Message.shown`, `Message.shownEnums`: what is shown of a message, in order
* `ObjectType.IsOf object type`, `StringEnum.IsOf enum type`: what is declared for a registered type
* `ClientModule.Reflects registry file module`: the module declares what is registered for the file

## Main results

* `File.mem_declarations_iff`: the walk through a file meets every place, and knows whether it is
  inside an entry message
* `File.shownMessages_eq`, `File.shownEnums_eq`: a file shows what its messages show
* `modulesOf_reflect`: the modules of a run declare what is registered for their files
-/

namespace ProtoClient

variable {options : Options} {registry : Registry} {files : List File} {file : File}
  {modules : List ClientModule} {module : ClientModule} {around : List Message} {name : String}
  {declared : Declared} {message : Message}

/-! ### Places -/

/-- **Where a file declares something**: inside the messages `around`, from the outermost one on,
and under a name that is qualified by all of them. A message is around itself. -/
inductive File.Places (file : File) : List Message → String → Declared → Prop
  | message {message : Message} (hm : message ∈ file.messages) :
    Places file [message] (qualify file.package message.name) (.message message)
  | enumeration {enum : EnumType} (he : enum ∈ file.enums) :
    Places file [] (qualify file.package enum.name) (.enumeration enum)
  | nestedMessage {around : List Message} {scope : String} {message inner : Message}
    (h : Places file around scope (.message message)) (hi : inner ∈ message.nested) :
    Places file (around ++ [inner]) (qualify scope inner.name) (.message inner)
  | nestedEnumeration {around : List Message} {scope : String} {message : Message}
    {enum : EnumType} (h : Places file around scope (.message message))
    (he : enum ∈ message.enums) :
    Places file around (qualify scope enum.name) (.enumeration enum)

/-- A message is around itself. -/
theorem File.Places.mem_around (h : file.Places around name (.message message)) :
    message ∈ around := by
  generalize hd : Declared.message message = declared at h
  cases h with
  | message hm =>
    cases hd
    exact List.mem_singleton_self _
  | nestedMessage h hi =>
    cases hd
    exact List.mem_append_right _ (List.mem_singleton_self _)
  | enumeration he => cases hd
  | nestedEnumeration h he => cases hd

/-- Whatever the walk through a message meets has a place when the message has one. -/
theorem File.Places.exists_of_mem_declarations {scope : String}
    (h : file.Places (around ++ [message]) (qualify scope message.name) (.message message))
    {declaration : Declaration}
    (hd : declaration ∈ message.declarations scope (around.any Message.isEntry)) :
    ∃ around, file.Places around declaration.name declaration.declared ∧
      declaration.inlined = around.any Message.isEntry := by
  -- the induction follows the nesting: the messages around grow by the message itself
  induction message using Message.induction generalizing around scope with
  | step message ih =>
    have hany : (around ++ [message]).any Message.isEntry =
        (around.any Message.isEntry || message.isEntry) := by simp
    rw [Message.declarations_eq, ← hany, List.mem_cons, List.mem_append] at hd
    rcases hd with rfl | hd | hd
    · exact ⟨_, h, rfl⟩
    · obtain ⟨inner, hinner, hd⟩ := List.mem_flatMap.mp hd
      exact ih inner hinner (.nestedMessage h hinner) hd
    · obtain ⟨enum, henum, rfl⟩ := List.mem_map.mp hd
      exact ⟨_, .nestedEnumeration h henum, rfl⟩

/-- The declarations right inside a message that is met in the walk. -/
def Declaration.inside (scope : String) (inlined : Bool) (message : Message) : List Declaration :=
  message.nested.map (fun inner =>
    ⟨qualify scope inner.name, inlined || inner.isEntry, .message inner⟩) ++
    EnumType.declarations scope inlined message.enums

/-- The walk through a message that meets another one goes on with what is right inside that. -/
theorem Message.inside_subset_declarations {outer : Message} {scope scope' : String}
    {inlined inlined' : Bool}
    (h : ⟨scope', inlined', .message message⟩ ∈ outer.declarations scope inlined) :
    Declaration.inside scope' inlined' message ⊆ outer.declarations scope inlined := by
  induction outer using Message.induction generalizing scope inlined with
  | step outer ih =>
    have hhead (inner : Message) (scope : String) (inlined : Bool) :
        ⟨qualify scope inner.name, inlined || inner.isEntry, .message inner⟩ ∈
          inner.declarations scope inlined := by
      rw [Message.declarations_eq]
      exact List.mem_cons_self
    intro declaration hd
    rw [Message.declarations_eq, List.mem_cons, List.mem_append] at h ⊢
    rcases h with h | h | h
    · cases h
      rcases List.mem_append.mp hd with hd | hd
      · obtain ⟨inner, hinner, rfl⟩ := List.mem_map.mp hd
        exact .inr (.inl (List.mem_flatMap.mpr ⟨inner, hinner, hhead ..⟩))
      · exact .inr (.inr hd)
    · obtain ⟨inner, hinner, h⟩ := List.mem_flatMap.mp h
      exact .inr (.inl (List.mem_flatMap.mpr ⟨inner, hinner, ih inner hinner h hd⟩))
    · obtain ⟨enum, -, h⟩ := List.mem_map.mp h
      cases h

/-- The walk through a file that meets a message goes on with what is right inside it. -/
theorem File.inside_subset_declarations {inlined : Bool}
    (h : ⟨name, inlined, .message message⟩ ∈ file.declarations) :
    Declaration.inside name inlined message ⊆ file.declarations := by
  unfold File.declarations at h ⊢
  rw [Message.listDeclarations_eq_flatMap] at h ⊢
  intro declaration hd
  rw [List.mem_append] at h ⊢
  rcases h with h | h
  · obtain ⟨outer, houter, h⟩ := List.mem_flatMap.mp h
    exact .inl (List.mem_flatMap.mpr ⟨outer, houter,
      Message.inside_subset_declarations h hd⟩)
  · obtain ⟨enum, -, h⟩ := List.mem_map.mp h
    cases h

/-- What has a place is met in the walk, and is inlined when an entry message is around it. -/
theorem File.Places.mem_declarations (h : file.Places around name declared) :
    ⟨name, around.any Message.isEntry, declared⟩ ∈ file.declarations := by
  induction h with
  | @message message hm =>
    rw [File.declarations, Message.listDeclarations_eq_flatMap]
    refine List.mem_append_left _ (List.mem_flatMap.mpr ⟨message, hm, ?_⟩)
    rw [Message.declarations_eq]
    simp
  | @enumeration enum he => exact List.mem_append_right _ (List.mem_map.mpr ⟨enum, he, rfl⟩)
  | @nestedMessage around scope message inner h hi ih =>
    apply File.inside_subset_declarations ih
    refine List.mem_append_left _ (List.mem_map.mpr ⟨inner, hi, ?_⟩)
    simp
  | @nestedEnumeration around scope message enum h he ih =>
    apply File.inside_subset_declarations ih
    exact List.mem_append_right _ (List.mem_map.mpr ⟨enum, he, rfl⟩)

/-- What has no entry message around it is met in the walk, and is not inlined. -/
theorem File.Places.mem_declarations_of_forall (h : file.Places around name declared)
    (hall : ∀ outer ∈ around, outer.isEntry = false) :
    ⟨name, false, declared⟩ ∈ file.declarations := by
  have hd := h.mem_declarations
  rwa [List.any_eq_false.mpr (by simpa using hall)] at hd

/-- **The walk through a file meets every place**, and inlines what has an entry message around
it. -/
theorem File.mem_declarations_iff {declaration : Declaration} :
    declaration ∈ file.declarations ↔
      ∃ around, file.Places around declaration.name declaration.declared ∧
        declaration.inlined = around.any Message.isEntry := by
  constructor
  · intro hd
    unfold File.declarations at hd
    rw [Message.listDeclarations_eq_flatMap, List.mem_append] at hd
    rcases hd with hd | hd
    · obtain ⟨message, hm, hd⟩ := List.mem_flatMap.mp hd
      have hplaces : file.Places ([] ++ [message]) (qualify file.package message.name)
          (.message message) := .message hm
      exact hplaces.exists_of_mem_declarations hd
    · obtain ⟨enum, he, rfl⟩ := List.mem_map.mp hd
      exact ⟨[], .enumeration he, rfl⟩
  · rintro ⟨around, h, hinlined⟩
    have hd := h.mem_declarations
    rwa [← hinlined] at hd

/-! ### The order of what is shown -/

mutual

/-- **The messages that are shown of a message**, under their qualified names: itself, and then
those of the messages nested in it. An entry message shows nothing. -/
def Message.shown (scope : String) : Message → List (String × Message)
  | ⟨name, fields, nested, enums, choices, isEntry⟩ =>
    if isEntry then []
    else (qualify scope name, ⟨name, fields, nested, enums, choices, isEntry⟩) ::
      Message.listShown (qualify scope name) nested

/-- The messages that are shown of several messages. -/
def Message.listShown (scope : String) : List Message → List (String × Message)
  | [] => []
  | message :: rest => message.shown scope ++ Message.listShown scope rest

end

/-- Enums under their qualified names. -/
def EnumType.listShown (scope : String) (enums : List EnumType) : List (String × EnumType) :=
  enums.map fun enum => (qualify scope enum.name, enum)

mutual

/-- **The enums that are shown of a message**: those of the messages nested in it, and then its
own. An entry message shows none. -/
def Message.shownEnums (scope : String) : Message → List (String × EnumType)
  | ⟨name, _, nested, enums, _, isEntry⟩ =>
    if isEntry then []
    else Message.listShownEnums (qualify scope name) nested ++
      EnumType.listShown (qualify scope name) enums

/-- The enums that are shown of several messages. -/
def Message.listShownEnums (scope : String) : List Message → List (String × EnumType)
  | [] => []
  | message :: rest => message.shownEnums scope ++ Message.listShownEnums scope rest

end

theorem Message.listShown_eq_flatMap (scope : String) (messages : List Message) :
    Message.listShown scope messages = messages.flatMap (Message.shown scope) := by
  induction messages with
  | nil => rfl
  | cons message rest ih => rw [Message.listShown, ih, List.flatMap_cons]

theorem Message.shown_eq (scope : String) (message : Message) :
    message.shown scope = if message.isEntry then [] else
      (qualify scope message.name, message) ::
        message.nested.flatMap (Message.shown (qualify scope message.name)) := by
  rw [← Message.listShown_eq_flatMap]
  cases message
  rfl

theorem Message.listShownEnums_eq_flatMap (scope : String) (messages : List Message) :
    Message.listShownEnums scope messages = messages.flatMap (Message.shownEnums scope) := by
  induction messages with
  | nil => rfl
  | cons message rest ih => rw [Message.listShownEnums, ih, List.flatMap_cons]

theorem Message.shownEnums_eq (scope : String) (message : Message) :
    message.shownEnums scope = if message.isEntry then [] else
      message.nested.flatMap (Message.shownEnums (qualify scope message.name)) ++
        EnumType.listShown (qualify scope message.name) message.enums := by
  rw [← Message.listShownEnums_eq_flatMap]
  cases message
  rfl

/-! ### What a file shows -/

/-- What a walk selects from the messages nested in one is nothing where they are hidden, and
otherwise what it selects from each of them. -/
theorem Message.filterMap_nested {β : Type} {select : Declaration → Option β}
    {shown : String → Message → List β}
    (h : ∀ inner ∈ message.nested, ∀ scope inlined,
      (inner.declarations scope inlined).filterMap select =
        if inlined then [] else shown scope inner) (scope : String) (hidden : Bool) :
    (message.nested.flatMap (·.declarations scope hidden)).filterMap select =
      if hidden then [] else message.nested.flatMap (shown scope) := by
  rw [List.filterMap_flatMap, List.flatMap_congr fun inner hinner => h inner hinner scope hidden]
  cases hidden <;> simp

/-- The message that a declaration shows. -/
def Declaration.shownMessage? : Declaration → Option (String × Message)
  | ⟨name, false, .message message⟩ => some (name, message)
  | _ => none

/-- The enum that a declaration shows. -/
def Declaration.shownEnum? : Declaration → Option (String × EnumType)
  | ⟨name, false, .enumeration enum⟩ => some (name, enum)
  | _ => none

theorem EnumType.filterMap_shownMessage? (scope : String) (inlined : Bool) (enums : List EnumType) :
    (EnumType.declarations scope inlined enums).filterMap Declaration.shownMessage? = [] := by
  simp [EnumType.declarations, Declaration.shownMessage?]

theorem EnumType.filterMap_shownEnum? (scope : String) (inlined : Bool) (enums : List EnumType) :
    (EnumType.declarations scope inlined enums).filterMap Declaration.shownEnum? =
      if inlined then [] else EnumType.listShown scope enums := by
  cases inlined <;>
    simp [EnumType.declarations, EnumType.listShown, List.filterMap_map, Function.comp_def,
      Declaration.shownEnum?]

/-- The walk through a message selects the messages that are shown of it, unless it stands in an
entry message. -/
theorem Message.filterMap_shownMessage? (message : Message) (scope : String) (inlined : Bool) :
    (message.declarations scope inlined).filterMap Declaration.shownMessage? =
      if inlined then [] else message.shown scope := by
  induction message using Message.induction generalizing scope inlined with
  | step message ih =>
    rw [message.declarations_eq, List.filterMap_cons, List.filterMap_append,
      Message.filterMap_nested ih, EnumType.filterMap_shownMessage?, message.shown_eq]
    cases inlined <;> cases message.isEntry <;> simp [Declaration.shownMessage?]

/-- The walk through a message selects the enums that are shown of it, unless it stands in an
entry message. -/
theorem Message.filterMap_shownEnum? (message : Message) (scope : String) (inlined : Bool) :
    (message.declarations scope inlined).filterMap Declaration.shownEnum? =
      if inlined then [] else message.shownEnums scope := by
  induction message using Message.induction generalizing scope inlined with
  | step message ih =>
    rw [message.declarations_eq, List.filterMap_cons, List.filterMap_append,
      Message.filterMap_nested ih, EnumType.filterMap_shownEnum?, message.shownEnums_eq]
    cases inlined <;> cases message.isEntry <;> simp [Declaration.shownEnum?]

/-- **A file shows the messages that its messages show.** -/
theorem File.shownMessages_eq (file : File) :
    file.shownMessages = Message.listShown file.package file.messages := by
  have hselect : file.shownMessages = file.declarations.filterMap Declaration.shownMessage? := by
    refine List.filterMap_congr fun declaration _ => ?_
    obtain ⟨name, _ | _, _ | _⟩ := declaration <;> rfl
  rw [hselect, declarations, List.filterMap_append, Message.listDeclarations_eq_flatMap,
    EnumType.filterMap_shownMessage?, List.append_nil, List.filterMap_flatMap,
    Message.listShown_eq_flatMap]
  exact List.flatMap_congr fun message _ => message.filterMap_shownMessage? file.package false

/-- **A file shows the enums that its messages show, and then its own.** -/
theorem File.shownEnums_eq (file : File) :
    file.shownEnums = Message.listShownEnums file.package file.messages ++
      EnumType.listShown file.package file.enums := by
  have hselect : file.shownEnums = file.declarations.filterMap Declaration.shownEnum? := by
    refine List.filterMap_congr fun declaration _ => ?_
    obtain ⟨name, _ | _, _ | _⟩ := declaration <;> rfl
  rw [hselect, declarations, List.filterMap_append, Message.listDeclarations_eq_flatMap,
    EnumType.filterMap_shownEnum?, List.filterMap_flatMap, Message.listShownEnums_eq_flatMap]
  refine congrArg (· ++ _) ?_
  exact List.flatMap_congr fun message _ => message.filterMap_shownEnum? file.package false

/-! ### What modules declare -/

/-- **An object type is that of a registered message**: it has its names, and its properties are the
fields in order. -/
structure ObjectType.IsOf (object : ObjectType) (type : Registered) : Prop where
  kind : type.kind = .message none
  name : object.protoName = type.name
  identifier : object.identifier = type.reference.identifier
  properties : object.properties.map (fun property => (property.protoName, property.number)) =
    type.fields.map fun field => (field.name, field.number)

/-- **A string enum is that of a registered enum**: it has its names. -/
structure StringEnum.IsOf (enum : StringEnum) (type : Registered) : Prop where
  kind : type.kind = .enumeration
  name : enum.protoName = type.name
  identifier : enum.identifier = type.reference.identifier

/-- The object type shows the message of that name: it is that of what the file has registered for
it. -/
def ObjectType.Shows (registry : Registry) (source : String) (shown : String × Message)
    (object : ObjectType) : Prop :=
  ∃ type, registry.get? shown.1 = some type ∧ type.name = shown.1 ∧ type.file = source ∧
    type.fields = shown.2.fields ∧ object.IsOf type

/-- The string enum shows the enum of that name: it is that of what the file has registered for it,
and has its values. -/
def StringEnum.Shows (registry : Registry) (source : String) (shown : String × EnumType)
    (enum : StringEnum) : Prop :=
  ∃ type, registry.get? shown.1 = some type ∧ type.name = shown.1 ∧ type.file = source ∧
    enum.values = shown.2.values ∧ enum.IsOf type

/-- **The module declares what is registered for the file**: what the file shows, in order and only
once, as it is registered; and of all that is registered for the file, nothing but what has an entry
message around it is left out. -/
structure ClientModule.Reflects (registry : Registry) (file : File) (module : ClientModule) :
    Prop where
  objects : List.Forall₂ (ObjectType.Shows registry file.name)
    (Message.listShown file.package file.messages) module.objects
  enums : List.Forall₂ (StringEnum.Shows registry file.name)
    (Message.listShownEnums file.package file.messages ++
      EnumType.listShown file.package file.enums) module.enums
  nodup : (module.objects.map ObjectType.protoName ++
    module.enums.map StringEnum.protoName).Nodup
  placed : ∀ type ∈ registry.values, type.file = file.name → ∃ around declaration,
    file.Places around declaration.name declaration.declared ∧
      type.StandsFor file.name declaration
  mem_objects_iff : ∀ around name message, file.Places around name (.message message) →
    (name ∈ module.objects.map ObjectType.protoName ↔ ∀ outer ∈ around, outer.isEntry = false)
  mem_enums_iff : ∀ around name enum, file.Places around name (.enumeration enum) →
    (name ∈ module.enums.map StringEnum.protoName ↔ ∀ outer ∈ around, outer.isEntry = false)

/-- The object types of a module are named after the messages that its file shows. -/
theorem ClientModule.protoNames_objects (h : ofFile? registry options file = .ok module) :
    module.objects.map ObjectType.protoName = file.shownMessages.map Prod.fst := by
  obtain ⟨objects, clients, ho, -, rfl⟩ := ofFile?_eq_ok_iff.mp h
  exact map_of_mapM (fun shown object => Message.protoName_of_objectType) ho

theorem ClientModule.protoNames_enums (h : ofFile? registry options file = .ok module) :
    module.enums.map StringEnum.protoName = file.shownEnums.map Prod.fst := by
  obtain ⟨objects, clients, -, -, rfl⟩ := ofFile?_eq_ok_iff.mp h
  exact List.map_map

/-- The properties of an object type are the fields of its message, in order. -/
theorem Message.properties_of_objectType {object : ObjectType}
    (h : message.objectType registry options file.name name = .ok object) :
    object.properties.map (fun property => (property.protoName, property.number)) =
      message.fields.map fun field => (field.name, field.number) := by
  obtain ⟨properties, hp, rfl⟩ := Message.objectType_eq_ok_iff.mp h
  apply map_of_mapM _ hp
  intro field property hproperty
  obtain ⟨type, -, rfl⟩ := property_eq_ok_iff.mp hproperty
  rfl

/-- A message that is shown is no entry message. -/
theorem File.isEntry_of_mem_shownMessages (h : (name, message) ∈ file.shownMessages) :
    message.isEntry = false := by
  obtain ⟨around, hplaces, hinlined⟩ := mem_declarations_iff.mp (mem_shownMessages.mp h)
  exact Bool.eq_false_iff.mpr (List.any_eq_false.mp hinlined.symm message hplaces.mem_around)

section Reflection

variable (hreg : Registry.ofFiles files = .ok registry)

include hreg

/-- A declaration of a file is what is registered under its name. -/
theorem get?_of_mem_declarations (hf : file ∈ files) {declaration : Declaration}
    (hd : declaration ∈ file.declarations) :
    registry.get? declaration.name = some (declaration.registered file.name) :=
  (Registry.ofFiles_eq_ok_iff.mp hreg).get?_iff.mpr
    ⟨mem_declaredTypes.mpr ⟨file, hf, declaration, hd, rfl⟩, Declaration.name_registered ..⟩

/-- Declarations of a registered file that have one name are one declaration. -/
theorem eq_of_mem_declarations (hf : file ∈ files) {declaration other : Declaration}
    (hd : declaration ∈ file.declarations) (ho : other ∈ file.declarations)
    (hname : declaration.name = other.name) : declaration = other :=
  List.inj_on_of_nodup_map (nodup_names_declarations hreg hf) hd ho hname

/-- Nothing that is placed under the name of a shown declaration has an entry message around it. -/
theorem forall_around_of_places (hf : file ∈ files) (hplaces : file.Places around name declared)
    {other : Declared} (ho : ⟨name, false, other⟩ ∈ file.declarations) :
    ∀ outer ∈ around, outer.isEntry = false := by
  have heq := eq_of_mem_declarations hreg hf hplaces.mem_declarations ho rfl
  simpa using congrArg Declaration.inlined heq

/-- The file of a registered type places it somewhere. -/
theorem exists_places_of_mem_values (hn : (files.map File.name).Nodup) (hf : file ∈ files)
    {type : Registered} (ht : type ∈ registry.values) (hfile : type.file = file.name) :
    ∃ around declaration, file.Places around declaration.name declaration.declared ∧
      type.StandsFor file.name declaration := by
  have hholds := Registry.ofFiles_eq_ok_iff.mp hreg
  obtain ⟨other, ho, declaration, hd, rfl⟩ :=
    mem_declaredTypes.mp (hholds.values_perm.mem_iff.mp ht)
  rw [Declaration.file_registered] at hfile
  obtain rfl := List.inj_on_of_nodup_map hn ho hf hfile
  obtain ⟨around, hplaces, -⟩ := File.mem_declarations_iff.mp hd
  exact ⟨around, declaration, hplaces, declaration.standsFor_registered other.name⟩

variable (h : ClientModule.ofFile? registry options file = .ok module) (hf : file ∈ files)

include h hf

theorem forall₂_shown_objects :
    List.Forall₂ (ObjectType.Shows registry file.name)
      (Message.listShown file.package file.messages) module.objects := by
  obtain ⟨objects, clients, ho, -, rfl⟩ := ClientModule.ofFile?_eq_ok_iff.mp h
  rw [← file.shownMessages_eq]
  apply forall₂_of_mapM _ ho
  rintro ⟨name, message⟩ hshown object hobject
  have hentry : message.mapEntry = none := by
    rw [Message.mapEntry, File.isEntry_of_mem_shownMessages hshown]
    rfl
  have hproperties := Message.properties_of_objectType hobject
  obtain ⟨properties, -, rfl⟩ := Message.objectType_eq_ok_iff.mp hobject
  refine ⟨_, get?_of_mem_declarations hreg hf (File.mem_shownMessages.mp hshown), rfl, rfl, rfl, ?_⟩
  exact ⟨congrArg _ hentry, rfl, rfl, hproperties⟩

theorem forall₂_shown_enums :
    List.Forall₂ (StringEnum.Shows registry file.name)
      (Message.listShownEnums file.package file.messages ++
        EnumType.listShown file.package file.enums) module.enums := by
  obtain ⟨objects, clients, -, -, rfl⟩ := ClientModule.ofFile?_eq_ok_iff.mp h
  rw [← file.shownEnums_eq]
  refine List.forall₂_map_right_iff.mpr (List.forall₂_same.mpr ?_)
  rintro ⟨name, enum⟩ hshown
  exact ⟨_, get?_of_mem_declarations hreg hf (File.mem_shownEnums.mp hshown), rfl, rfl, rfl,
    ⟨rfl, rfl, rfl⟩⟩

/-- No two declarations of a module have one proto name. -/
theorem nodup_protoNames :
    (module.objects.map ObjectType.protoName ++ module.enums.map StringEnum.protoName).Nodup := by
  rw [ClientModule.protoNames_objects h, ClientModule.protoNames_enums h, List.nodup_append]
  have hnodup := nodup_names_declarations hreg hf
  refine ⟨hnodup.sublist file.names_shownMessages_sublist,
    hnodup.sublist file.names_shownEnums_sublist, ?_⟩
  rintro name hm _ he rfl
  obtain ⟨⟨_, message⟩, hshown, rfl⟩ := List.mem_map.mp hm
  obtain ⟨⟨_, enum⟩, hshown', hname⟩ := List.mem_map.mp he
  have heq := eq_of_mem_declarations hreg hf (File.mem_shownEnums.mp hshown')
    (File.mem_shownMessages.mp hshown) hname
  cases heq

/-- The message at a place has an object type unless an entry message is around it. -/
theorem mem_objects_iff_of_places (hplaces : file.Places around name (.message message)) :
    name ∈ module.objects.map ObjectType.protoName ↔ ∀ outer ∈ around, outer.isEntry = false := by
  rw [ClientModule.protoNames_objects h]
  constructor
  · intro hm
    obtain ⟨⟨_, other⟩, hshown, rfl⟩ := List.mem_map.mp hm
    exact forall_around_of_places hreg hf hplaces (File.mem_shownMessages.mp hshown)
  · intro hall
    have hd := hplaces.mem_declarations_of_forall hall
    exact List.mem_map.mpr ⟨_, File.mem_shownMessages.mpr hd, rfl⟩

/-- The enum at a place has a string enum unless an entry message is around it. -/
theorem mem_enums_iff_of_places {enum : EnumType}
    (hplaces : file.Places around name (.enumeration enum)) :
    name ∈ module.enums.map StringEnum.protoName ↔ ∀ outer ∈ around, outer.isEntry = false := by
  rw [ClientModule.protoNames_enums h]
  constructor
  · intro he
    obtain ⟨⟨_, other⟩, hshown, rfl⟩ := List.mem_map.mp he
    exact forall_around_of_places hreg hf hplaces (File.mem_shownEnums.mp hshown)
  · intro hall
    have hd := hplaces.mem_declarations_of_forall hall
    exact List.mem_map.mpr ⟨_, File.mem_shownEnums.mpr hd, rfl⟩

end Reflection

/-- **The modules of a run declare what is registered for their files**, when no two of these have
one name. -/
theorem modulesOf_reflect (hn : (files.map File.name).Nodup)
    (hok : modulesOf options files = .ok modules) :
    ∃ registry, Registry.ofFiles files = .ok registry ∧
      List.Forall₂ (ClientModule.Reflects registry) files modules := by
  obtain ⟨registry, hreg, hmods⟩ := modulesOf_eq_ok_iff.mp hok
  refine ⟨registry, hreg, forall₂_of_mapM (fun file hf module hmodule => ?_) hmods⟩
  exact {
    objects := forall₂_shown_objects hreg hmodule hf
    enums := forall₂_shown_enums hreg hmodule hf
    nodup := nodup_protoNames hreg hmodule hf
    placed := fun type ht hfile => exists_places_of_mem_values hreg hn hf ht hfile
    mem_objects_iff := fun around name message hplaces =>
      mem_objects_iff_of_places hreg hmodule hf hplaces
    mem_enums_iff := fun around name enum hplaces =>
      mem_enums_iff_of_places hreg hmodule hf hplaces }

/-- A file of two messages, one of which has a map, a message and enums nested in it. -/
def Sample.parcel : File where
  name := "post/parcel.proto"
  package := "post"
  dependencies := []
  messages := [
    ⟨"Parcel", [
        ⟨"labels", 1, none, .repeated, .named ".post.Parcel.LabelsEntry", none, false⟩,
        ⟨"size", 2, none, .optional, .named ".post.Parcel.Size", none, false⟩],
      [⟨"LabelsEntry", [⟨"key", 1, none, .optional, .scalar .string, none, false⟩,
          ⟨"value", 2, none, .optional, .scalar .string, none, false⟩], [], [], [], true⟩,
        ⟨"Size", [⟨"width", 1, none, .optional, .scalar .int32, none, false⟩], [],
          [⟨"Unit", [⟨"MM", 0⟩]⟩], [], false⟩],
      [⟨"State", [⟨"SENT", 0⟩]⟩], [], false⟩,
    ⟨"Label", [], [], [], [], false⟩]
  enums := [⟨"Country", [⟨"NL", 0⟩]⟩]
  services := []

/-- The module of the parcel shows everything but the entry of the map. -/
theorem modulesOf_reflect_parcel :
    ([Sample.parcel].map File.name).Nodup ∧
      ∃ registry module, Registry.ofFiles [Sample.parcel] = .ok registry ∧
        modulesOf {} [Sample.parcel] = .ok [module] ∧
        registry.values.map Registered.name = ["post.Country", "post.Label", "post.Parcel",
          "post.Parcel.LabelsEntry", "post.Parcel.Size", "post.Parcel.Size.Unit",
          "post.Parcel.State"] ∧
        module.objects.map ObjectType.protoName =
          ["post.Parcel", "post.Parcel.Size", "post.Label"] ∧
        module.enums.map StringEnum.protoName =
          ["post.Parcel.Size.Unit", "post.Parcel.State", "post.Country"] ∧
        module.Reflects registry Sample.parcel := by
  have hn : ([Sample.parcel].map File.name).Nodup := by decide
  have hvalues : (Registry.ofFiles [Sample.parcel]).map (fun registry =>
      registry.values.map Registered.name) = .ok ["post.Country", "post.Label", "post.Parcel",
        "post.Parcel.LabelsEntry", "post.Parcel.Size", "post.Parcel.Size.Unit",
        "post.Parcel.State"] := by decide +kernel
  obtain ⟨modules, hok, hnames⟩ : ∃ modules, modulesOf {} [Sample.parcel] = .ok modules ∧
      modules.map (fun module =>
        (module.objects.map ObjectType.protoName, module.enums.map StringEnum.protoName)) =
          [(["post.Parcel", "post.Parcel.Size", "post.Label"],
            ["post.Parcel.Size.Unit", "post.Parcel.State", "post.Country"])] :=
    map_eq_ok_iff.mp (by decide +kernel)
  obtain ⟨module, rfl, heq⟩ := List.map_eq_singleton_iff.mp hnames
  obtain ⟨hobjects, henums⟩ := Prod.mk.inj heq
  obtain ⟨registry, hreg, hreflect⟩ := modulesOf_reflect hn hok
  rw [hreg] at hvalues
  rw [List.forall₂_cons] at hreflect
  exact ⟨hn, registry, module, hreg, hok, Except.ok.inj hvalues, hobjects, henums, hreflect.1⟩

end ProtoClient
