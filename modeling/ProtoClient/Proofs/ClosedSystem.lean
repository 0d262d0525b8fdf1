import ProtoClient.Proofs.Generation
import ProtoClient.Proofs.OutputPath
import ProtoClient.Proofs.Registration

/-!
# The modules of a run form a closed system

Three walks through the files have to agree. One registers every declaration, one turns the shown
declarations into object types and enums, and one collects what the types of a module refer to,
with maps in the place of entry messages. They do agree as long as entry messages are shaped as
entries: then whatever a module refers to is declared by a module of the run, and an import stands
for it where that is another module. The specifiers of the imports lead to the modules that they
stand for.

## Main definitions

* `Message.IsEntryShaped`: the message has a key and a value, and nothing nested
* `ClientModule.Declares module type`: what the type refers to is declared by the module
* `ClosedSystem options modules`: the modules refer to each other, and nowhere else

## Main results

* `File.exists_entry_of_inlined`: nothing but entry messages is inlined
* `exists_declares_of_resolves`: whatever resolution refers to is declared by a module
* `filter_importsOf`: there is one import for each other file that is referred to
* `closedSystem_of_modulesOf`: the modules of a run form a closed system
-/

namespace ProtoClient

open Text

variable {options : Options} {registry : Registry} {files : List File} {file : File}
  {modules : List ClientModule} {module source : ClientModule}

/-! ### Entry messages -/

/-- **A message is shaped as an entry** when it has a key and a value, and nothing nested. -/
structure Message.IsEntryShaped (message : Message) : Prop where
  key : ∃ field ∈ message.fields, field.number = 1
  value : ∃ field ∈ message.fields, field.number = 2
  nested : message.nested = []
  enums : message.enums = []

instance (message : Message) : Decidable message.IsEntryShaped :=
  decidable_of_iff
    ((∃ field ∈ message.fields, field.number = 1) ∧ (∃ field ∈ message.fields, field.number = 2) ∧
      message.nested.isEmpty = true ∧ message.enums.isEmpty = true)
    ⟨fun ⟨hkey, hvalue, hnested, henums⟩ =>
        ⟨hkey, hvalue, List.isEmpty_iff.mp hnested, List.isEmpty_iff.mp henums⟩,
      fun h => ⟨h.key, h.value, List.isEmpty_iff.mpr h.nested, List.isEmpty_iff.mpr h.enums⟩⟩

/-- If an entry message is declared, it is shaped as an entry. -/
def Declaration.HasShape (declaration : Declaration) : Prop :=
  match declaration.declared with
  | .message message => message.isEntry = true → message.IsEntryShaped
  | .enumeration _ => True

instance : DecidablePred Declaration.HasShape
  | ⟨_, _, .message message⟩ =>
    inferInstanceAs (Decidable (message.isEntry = true → message.IsEntryShaped))
  | ⟨_, _, .enumeration _⟩ => .isTrue trivial

/-- The walk through a message inlines nothing but entry messages. -/
theorem Message.exists_entry_of_inlined {scope : String} {message : Message}
    (hs : ∀ declaration ∈ message.declarations scope false, declaration.HasShape)
    {declaration : Declaration} (hd : declaration ∈ message.declarations scope false)
    (hi : declaration.inlined = true) :
    ∃ entry : Message, declaration.declared = .message entry ∧ entry.isEntry = true := by
  -- the induction follows the nesting, and ends in entry messages, as nothing is nested in them
  induction message using Message.induction generalizing scope with
  | step message ih =>
    rw [Message.declarations_eq, List.forall_mem_cons] at hs
    rw [Message.declarations_eq, List.mem_cons] at hd
    cases he : message.isEntry with
    | true =>
      have hshape : message.IsEntryShaped := hs.1 he
      rw [hshape.nested, hshape.enums] at hd
      obtain rfl := hd.resolve_right (by simp [EnumType.declarations])
      exact ⟨message, rfl, he⟩
    | false =>
      rw [he] at hs hd
      rw [List.forall_mem_append] at hs
      rcases hd with rfl | hd
      · cases hi
      rcases List.mem_append.mp hd with hnested | henum
      · obtain ⟨inner, hinner, hd⟩ := List.mem_flatMap.mp hnested
        refine ih inner hinner (fun other ho => hs.2.1 other ?_) hd
        exact List.mem_flatMap.mpr ⟨inner, hinner, ho⟩
      · obtain ⟨enum, -, rfl⟩ := List.mem_map.mp henum
        cases hi

/-- **Nothing but entry messages is inlined.** -/
theorem File.exists_entry_of_inlined (hs : ∀ declaration ∈ file.declarations, declaration.HasShape)
    {declaration : Declaration} (hd : declaration ∈ file.declarations)
    (hi : declaration.inlined = true) :
    ∃ entry : Message, declaration.declared = .message entry ∧ entry.isEntry = true := by
  unfold File.declarations at hs hd
  rw [Message.listDeclarations_eq_flatMap, List.forall_mem_append] at hs
  rw [Message.listDeclarations_eq_flatMap, List.mem_append] at hd
  rcases hd with hmessage | henum
  · obtain ⟨message, hm, hd⟩ := List.mem_flatMap.mp hmessage
    refine Message.exists_entry_of_inlined (fun other ho => hs.1 other ?_) hd hi
    exact List.mem_flatMap.mpr ⟨message, hm, ho⟩
  · obtain ⟨enum, -, rfl⟩ := List.mem_map.mp henum
    cases hi

theorem exists_find?_number {fields : List Field} {number : Int}
    (h : ∃ field ∈ fields, field.number = number) :
    ∃ field, fields.find? (·.number = number) = some field := by
  rw [← Option.isSome_iff_exists, List.find?_isSome]
  simpa using h

/-- A message that is shaped as an entry is a map entry. -/
theorem Message.IsEntryShaped.exists_mapEntry {message : Message} (h : message.IsEntryShaped)
    (he : message.isEntry = true) : ∃ entry, message.mapEntry = some entry := by
  obtain ⟨key, hkey⟩ := exists_find?_number h.key
  obtain ⟨value, hvalue⟩ := exists_find?_number h.value
  unfold Message.mapEntry
  rw [if_pos he, hkey, hvalue]
  exact ⟨_, rfl⟩

/-- Whatever is registered as a message that is no map entry is shown. -/
theorem File.exists_shownMessage (hs : ∀ declaration ∈ file.declarations, declaration.HasShape)
    {declaration : Declaration} (hd : declaration ∈ file.declarations)
    (hk : (declaration.registered file.name).kind = .message none) :
    ∃ message, (declaration.name, message) ∈ file.shownMessages := by
  obtain ⟨name, inlined, message | enum⟩ := declaration
  · refine ⟨message, File.mem_shownMessages.mpr ?_⟩
    cases inlined with
    | false => exact hd
    | true =>
      obtain ⟨entry, hentry, he⟩ := File.exists_entry_of_inlined hs hd rfl
      cases hentry
      obtain ⟨entry, hmap⟩ := (hs _ hd he).exists_mapEntry he
      have hnone : message.mapEntry = none := TypeKind.message.inj hk
      rw [hnone] at hmap
      cases hmap
  · cases hk

/-- Whatever is registered as an enum is shown. -/
theorem File.exists_shownEnum (hs : ∀ declaration ∈ file.declarations, declaration.HasShape)
    {declaration : Declaration} (hd : declaration ∈ file.declarations)
    (hk : (declaration.registered file.name).kind = .enumeration) :
    ∃ enum, (declaration.name, enum) ∈ file.shownEnums := by
  obtain ⟨name, inlined, message | enum⟩ := declaration
  · cases hk
  · refine ⟨enum, File.mem_shownEnums.mpr ?_⟩
    cases inlined with
    | false => exact hd
    | true =>
      obtain ⟨entry, hentry, -⟩ := File.exists_entry_of_inlined hs hd rfl
      cases hentry

/-! ### References -/

/-- What a type refers to, where it is a reference. -/
def TypeExpr.target? : TypeExpr → Option Reference
  | .object target => some target
  | .enumeration target => some target
  | .builtin _ => none
  | .map _ _ => none

/-- **The module declares what the type refers to**, as an object type or as an enum. -/
def ClientModule.Declares (module : ClientModule) : TypeExpr → Prop
  | .object target =>
    target.file = module.name ∧ ∃ object ∈ module.objects, object.identifier = target.identifier
  | .enumeration target =>
    target.file = module.name ∧ ∃ enum ∈ module.enums, enum.identifier = target.identifier
  | .builtin _ => False
  | .map _ _ => False

/-- The identifiers that a module declares. -/
def ClientModule.identifiers (module : ClientModule) : List String :=
  module.objects.map ObjectType.identifier ++ module.enums.map StringEnum.identifier

/-- Whatever is registered is declared in a file of the run, which has a module. -/
theorem exists_module_of_find? (hreg : Registry.ofFiles files = .ok registry)
    (hmods : files.mapM (ClientModule.ofFile? registry options) = .ok modules) {name : String}
    {type : Registered} (hf : registry.find? name = some type) :
    ∃ file ∈ files, ∃ module ∈ modules, ClientModule.ofFile? registry options file = .ok module ∧
      ∃ declaration ∈ file.declarations, declaration.registered file.name = type := by
  have hholds := Registry.ofFiles_eq_ok_iff.mp hreg
  obtain ⟨file, hfile, hdecl⟩ := mem_declaredTypes.mp (hholds.get?_iff.mp hf).1
  obtain ⟨module, hmod, hok⟩ := exists_mem_of_mapM hmods hfile
  exact ⟨file, hfile, module, hmod, hok, hdecl⟩

/-- **Whatever resolution refers to is declared by a module** of the run. -/
theorem exists_declares_of_resolves (hreg : Registry.ofFiles files = .ok registry)
    (hmods : files.mapM (ClientModule.ofFile? registry options) = .ok modules)
    (hs : ∀ file ∈ files, ∀ declaration ∈ file.declarations, declaration.HasShape)
    {type : FieldType} {expr : TypeExpr} {target : Reference}
    (h : Resolves registry type expr) (ht : expr.target? = some target) :
    ∃ module ∈ modules, module.name = target.file ∧ module.Declares expr := by
  cases h with
  | scalar scalar => cases ht
  | wellKnown hb => cases ht
  | map hb hf hk hkey hvalue => cases ht
  | object hb hf hk =>
    cases ht
    obtain ⟨file, hfile, module, hmod, hok, declaration, hd, rfl⟩ :=
      exists_module_of_find? hreg hmods hf
    obtain ⟨message, hm⟩ := File.exists_shownMessage (hs file hfile) hd hk
    obtain ⟨object, hobj, -, hid⟩ := ClientModule.exists_object_of_shown hok hm
    have hname : (declaration.registered file.name).reference.file = module.name := by
      rw [Registered.reference, Declaration.file_registered, ClientModule.name_of_ofFile? hok]
    refine ⟨module, hmod, hname.symm, hname, object, hobj, ?_⟩
    rw [hid, Registered.reference, Declaration.name_registered]
  | enumeration hb hf hk =>
    cases ht
    obtain ⟨file, hfile, module, hmod, hok, declaration, hd, rfl⟩ :=
      exists_module_of_find? hreg hmods hf
    obtain ⟨enum, hm⟩ := File.exists_shownEnum (hs file hfile) hd hk
    obtain ⟨shown, hshown, -, hid⟩ := ClientModule.exists_enum_of_shown hok hm
    have hname : (declaration.registered file.name).reference.file = module.name := by
      rw [Registered.reference, Declaration.file_registered, ClientModule.name_of_ofFile? hok]
    refine ⟨module, hmod, hname.symm, hname, shown, hshown, ?_⟩
    rw [hid, Registered.reference, Declaration.name_registered]

theorem ClientModule.Declares.mem_identifiers {expr : TypeExpr} {target : Reference}
    (h : module.Declares expr) (ht : expr.target? = some target) :
    target.identifier ∈ module.identifiers := by
  unfold ClientModule.identifiers
  rw [List.mem_append, List.mem_map, List.mem_map]
  cases expr with
  | builtin text => cases ht
  | map key value => cases ht
  | object other =>
    cases ht
    exact .inl h.2
  | enumeration other =>
    cases ht
    exact .inr h.2

theorem TypeExpr.mem_references_iff_target? {expr : TypeExpr} {target : Reference} :
    target ∈ expr.references ↔ ∃ part ∈ expr.parts, part.target? = some target := by
  rw [TypeExpr.mem_references_iff]
  constructor
  · rintro (h | h)
    · exact ⟨_, h, rfl⟩
    · exact ⟨_, h, rfl⟩
  · rintro ⟨part, hp, ht⟩
    cases part with
    | builtin text => cases ht
    | map key value => cases ht
    | object other =>
      cases ht
      exact .inl hp
    | enumeration other =>
      cases ht
      exact .inr hp

/-! ### Imports -/

variable {name output other : String} {references : List Reference}

/-- The import from the module of another file. -/
def importFrom (output : String) (references : List Reference) (other : String) : Import where
  file := other
  output := outputPath other
  specifier := specifier output (outputPath other)
  identifiers := sortNames ((references.filter (·.file = other)).map Reference.identifier)

/-- The files that references lead to, besides the file itself and what is written in its place. -/
def importedFiles (name output : String) (references : List Reference) : List String :=
  sortNames ((references.map Reference.file).filter fun other =>
    other ≠ name ∧ outputPath other ≠ output)

theorem importsOf_eq_map (name output : String) (references : List Reference) :
    importsOf name output references =
      (importedFiles name output references).map (importFrom output references) :=
  rfl

theorem mem_importedFiles :
    other ∈ importedFiles name output references ↔
      (∃ target ∈ references, target.file = other) ∧ other ≠ name ∧ outputPath other ≠ output := by
  unfold importedFiles
  rw [mem_sortNames, List.mem_filter, List.mem_map, decide_eq_true_iff]

theorem output_importFrom (output other : String) (references : List Reference) :
    (importFrom output references other).output = outputPath other := by
  rw [importFrom]

theorem specifier_importFrom :
    (importFrom output references other).specifier = specifier output (outputPath other) := by
  rw [importFrom]

theorem mem_identifiers_importFrom {identifier : String} :
    identifier ∈ (importFrom output references other).identifiers ↔
      ∃ target ∈ references, target.file = other ∧ target.identifier = identifier := by
  unfold importFrom
  rw [mem_sortNames, List.mem_map]
  simp [and_assoc]

/-- **There is one import for each other file** that is referred to. -/
theorem filter_importsOf (h : other ∈ importedFiles name output references) :
    (importsOf name output references).filter (·.file = other) =
      [importFrom output references other] := by
  have hnodup : (importedFiles name output references).Nodup :=
    (pairwise_sortNames _).imp fun hlt => String.ne_of_lt hlt
  rw [importsOf_eq_map, List.filter_map]
  show ((importedFiles name output references).filter (· = other)).map _ = _
  rw [List.filter_eq, List.count_eq_one_of_mem hnodup h]
  rfl

/-! ### The modules of a run -/

/-- The imports of a module are those that the references in its types need. -/
theorem ClientModule.imports_of_ofFile? (h : ofFile? registry options file = .ok module) :
    module.imports =
      importsOf module.name module.output (module.types.flatMap TypeExpr.references) := by
  obtain ⟨objects, clients, -, -, rfl⟩ := ofFile?_eq_ok_iff.mp h
  rw [← referencesOf_eq]
  rfl

theorem ClientModule.fetch_of_ofFile? (h : ofFile? registry options file = .ok module)
    {specifier : String} (hf : module.fetch = some specifier) :
    specifier = ProtoClient.specifier module.output options.fetchPath := by
  obtain ⟨objects, clients, -, -, rfl⟩ := ofFile?_eq_ok_iff.mp h
  unfold ofParts at hf
  split at hf
  · exact (Option.some.inj hf).symm
  · cases hf

section Run

variable (hok : modulesOf options files = .ok modules)

include hok

theorem exists_file_of_mem_modulesOf (hm : module ∈ modules) :
    ∃ registry, ∃ file ∈ files, ClientModule.ofFile? registry options file = .ok module := by
  obtain ⟨registry, -, hmods⟩ := modulesOf_eq_ok_iff.mp hok
  exact ⟨registry, exists_of_mem_of_mapM hmods hm⟩

theorem imports_of_mem_modulesOf (hm : module ∈ modules) :
    module.imports =
      importsOf module.name module.output (module.types.flatMap TypeExpr.references) := by
  obtain ⟨registry, file, -, hmodule⟩ := exists_file_of_mem_modulesOf hok hm
  exact ClientModule.imports_of_ofFile? hmodule

theorem isCleanProto_of_mem_modulesOf (hp : ∀ file ∈ files, IsCleanProto file.name)
    (hm : module ∈ modules) : IsCleanProto module.name := by
  obtain ⟨registry, file, hfile, hmodule⟩ := exists_file_of_mem_modulesOf hok hm
  rw [ClientModule.name_of_ofFile? hmodule]
  exact hp file hfile

/-- The modules of a run are written to paths that lead down. -/
theorem leadsDown_output (hp : ∀ file ∈ files, IsCleanProto file.name) (hm : module ∈ modules) :
    LeadsDown module.output := by
  rw [output_of_mem_modulesOf hok hm]
  exact (isCleanProto_of_mem_modulesOf hok hp hm).leadsDown_outputPath

/-- Modules of different names are written to different paths. -/
theorem outputPath_ne_output (hp : ∀ file ∈ files, IsCleanProto file.name)
    (hm : module ∈ modules) (hsource : source ∈ modules) (hne : module.name ≠ source.name) :
    outputPath module.name ≠ source.output := by
  intro heq
  rw [output_of_mem_modulesOf hok hsource] at heq
  exact hne (outputPath_inj (isCleanProto_of_mem_modulesOf hok hp hm).isPlain
    (isCleanProto_of_mem_modulesOf hok hp hsource).isPlain heq)

/-- The specifier of one module in another leads to it. -/
theorem joinClean_specifier_output (hp : ∀ file ∈ files, IsCleanProto file.name)
    (hm : module ∈ modules) (hsource : source ∈ modules) :
    joinClean (directory source.output) (specifier source.output module.output ++ ".ts") =
      module.output := by
  have htarget := leadsDown_output hok hp hm
  have hback := (leadsDown_output hok hp hsource).joinClean_specifier htarget.hasFront_slashed
    htarget.joinClean_eq
  have hext : extension module.output = ".ts" := by
    rw [output_of_mem_modulesOf hok hm, extension_outputPath]
  rw [hext] at hback
  exact hback

/-- Whatever a part of a type in a module refers to is declared by a module. -/
theorem exists_declares_of_mem_types
    (hs : ∀ file ∈ files, ∀ declaration ∈ file.declarations, declaration.HasShape)
    (hm : source ∈ modules) {type part : TypeExpr} (htype : type ∈ source.types)
    (hpart : part ∈ type.parts) {target : Reference} (ht : part.target? = some target) :
    ∃ module ∈ modules, module.name = target.file ∧ module.Declares part := by
  obtain ⟨registry, hreg, hmods⟩ := modulesOf_eq_ok_iff.mp hok
  obtain ⟨file, -, hmodule⟩ := exists_of_mem_of_mapM hmods hm
  obtain ⟨outer, houter⟩ := ClientModule.exists_resolves_of_mem_types hmodule htype
  obtain ⟨inner, hinner⟩ := houter.exists_of_mem_parts hpart
  exact exists_declares_of_resolves hreg hmods hs hinner ht

theorem exists_identifier_of_mem_references
    (hs : ∀ file ∈ files, ∀ declaration ∈ file.declarations, declaration.HasShape)
    (hm : source ∈ modules) {target : Reference}
    (ht : target ∈ source.types.flatMap TypeExpr.references) :
    ∃ module ∈ modules, module.name = target.file ∧ target.identifier ∈ module.identifiers := by
  obtain ⟨type, htype, ht⟩ := List.mem_flatMap.mp ht
  obtain ⟨part, hpart, ht⟩ := TypeExpr.mem_references_iff_target?.mp ht
  obtain ⟨module, hmodule, hname, hdecl⟩ := exists_declares_of_mem_types hok hs hm htype hpart ht
  exact ⟨module, hmodule, hname, hdecl.mem_identifiers ht⟩

/-- What is referred to in another module is imported from it once. -/
theorem exists_import_of_ne (hp : ∀ file ∈ files, IsCleanProto file.name) (hm : module ∈ modules)
    (hsource : source ∈ modules) (hne : module.name ≠ source.name) {target : Reference}
    (ht : target ∈ source.types.flatMap TypeExpr.references) (hfile : target.file = module.name) :
    ∃ entry, source.imports.filter (·.file = module.name) = [entry] ∧
      target.identifier ∈ entry.identifiers := by
  have hother := mem_importedFiles.mpr
    ⟨⟨target, ht, hfile⟩, hne, outputPath_ne_output hok hp hm hsource hne⟩
  rw [imports_of_mem_modulesOf hok hsource, filter_importsOf hother]
  exact ⟨_, rfl, mem_identifiers_importFrom.mpr ⟨target, ht, hfile, rfl⟩⟩

/-- Every import stands for references to another file. -/
theorem exists_importFrom_of_mem_imports (hsource : source ∈ modules) {entry : Import}
    (h : entry ∈ source.imports) :
    ∃ target ∈ source.types.flatMap TypeExpr.references, target.file ≠ source.name ∧
      entry = importFrom source.output (source.types.flatMap TypeExpr.references) target.file := by
  rw [imports_of_mem_modulesOf hok hsource, importsOf_eq_map] at h
  obtain ⟨other, hother, rfl⟩ := List.mem_map.mp h
  obtain ⟨⟨target, ht, rfl⟩, hne, -⟩ := mem_importedFiles.mp hother
  exact ⟨target, ht, hne, rfl⟩

end Run

/-! ### Closed systems -/

/-- **The modules form a closed system**: they refer to each other and nowhere else, and their
specifiers lead to each other and to the shared fetch module. -/
structure ClosedSystem (options : Options) (modules : List ClientModule) : Prop where
  /-- No two modules have one name. -/
  distinct : (modules.map ClientModule.name).Nodup
  /-- Whatever a module refers to is declared by the module of that file: by itself, or by one that
  it imports this from, and imports from once. -/
  declared : ∀ source ∈ modules, ∀ type ∈ source.types, ∀ part ∈ type.parts, ∀ target,
    part.target? = some target →
      ∃ module ∈ modules, module.name = target.file ∧ module.Declares part ∧
        (module = source ∨ ∃ entry, source.imports.filter (·.file = module.name) = [entry] ∧
          target.identifier ∈ entry.identifiers)
  /-- Whatever a module imports is declared by another module, which the specifier leads to. -/
  imported : ∀ source ∈ modules, ∀ entry ∈ source.imports,
    ∃ module ∈ modules, module.name = entry.file ∧ module ≠ source ∧
      (∀ identifier ∈ entry.identifiers, identifier ∈ module.identifiers) ∧
      joinClean (directory source.output) (entry.specifier ++ ".ts") = module.output
  /-- The specifier of the shared fetch module, with its extension put back, is the path of that
  module where this is absolute, and otherwise leads to it from the directory of the module. -/
  fetched : ∀ source ∈ modules, ∀ specifier, source.fetch = some specifier →
    (hasFront "/" options.fetchPath = true →
      specifier ++ extension options.fetchPath = options.fetchPath) ∧
    (hasFront "/" options.fetchPath = false →
      joinClean (directory source.output) (specifier ++ extension options.fetchPath) =
        options.fetchPath)

/-- **The modules of a run form a closed system** when its files have different clean names and
its entry messages are shaped as entries. -/
theorem closedSystem_of_modulesOf (hok : modulesOf options files = .ok modules)
    (hd : (files.map File.name).Nodup) (hp : ∀ file ∈ files, IsCleanProto file.name)
    (hs : ∀ file ∈ files, ∀ declaration ∈ file.declarations, declaration.HasShape) :
    ClosedSystem options modules := by
  have hdistinct : (modules.map ClientModule.name).Nodup := names_of_modulesOf hok ▸ hd
  have hsame {module other : ClientModule} (hm : module ∈ modules) (ho : other ∈ modules)
      (hname : module.name = other.name) : module = other :=
    List.inj_on_of_nodup_map hdistinct hm ho hname
  constructor
  case distinct => exact hdistinct
  case declared =>
    intro source hsource type htype part hpart target ht
    obtain ⟨module, hmodule, hname, hdecl⟩ :=
      exists_declares_of_mem_types hok hs hsource htype hpart ht
    refine ⟨module, hmodule, hname, hdecl, ?_⟩
    by_cases hself : module = source
    · exact .inl hself
    have hne : module.name ≠ source.name := fun h => hself (hsame hmodule hsource h)
    have href : target ∈ source.types.flatMap TypeExpr.references :=
      List.mem_flatMap.mpr ⟨type, htype, TypeExpr.mem_references_iff_target?.mpr ⟨part, hpart, ht⟩⟩
    exact .inr (exists_import_of_ne hok hp hmodule hsource hne href hname.symm)
  case imported =>
    intro source hsource entry hentry
    obtain ⟨target, href, hne, rfl⟩ := exists_importFrom_of_mem_imports hok hsource hentry
    obtain ⟨module, hmodule, hname, -⟩ := exists_identifier_of_mem_references hok hs hsource href
    rw [← hname] at hne ⊢
    refine ⟨module, hmodule, rfl, fun h => hne (congrArg _ h), ?_, ?_⟩
    · intro identifier hidentifier
      obtain ⟨target, href, hfile, rfl⟩ := mem_identifiers_importFrom.mp hidentifier
      obtain ⟨again, hagain, hname, hid⟩ :=
        exists_identifier_of_mem_references hok hs hsource href
      obtain rfl : again = module := hsame hagain hmodule (hname.trans hfile)
      exact hid
    · rw [specifier_importFrom, ← output_of_mem_modulesOf hok hmodule]
      exact joinClean_specifier_output hok hp hmodule hsource
  case fetched =>
    intro source hsource specifier hfetch
    obtain ⟨registry, file, -, hmodule⟩ := exists_file_of_mem_modulesOf hok hsource
    rw [ClientModule.fetch_of_ofFile? hmodule hfetch]
    exact (leadsDown_output hok hp hsource).specifier_joinClean _ _

/-- The modules of the sample form a closed system, in which one imports from the other. -/
theorem closedSystem_sample :
    (Sample.request.files.map File.name).Nodup ∧
      (∀ file ∈ Sample.request.files, IsCleanProto file.name) ∧
      (∀ file ∈ Sample.request.files, ∀ declaration ∈ file.declarations, declaration.HasShape) ∧
      ∃ modules, modulesOf {} Sample.request.files = .ok modules ∧
        modules.map ClientModule.importedOutputs = [[], ["shop/item.pb.ts"]] ∧
        ClosedSystem {} modules := by
  have hd : (Sample.request.files.map File.name).Nodup := by decide
  have hp : ∀ file ∈ Sample.request.files, IsCleanProto file.name := by decide +kernel
  have hs : ∀ file ∈ Sample.request.files, ∀ declaration ∈ file.declarations,
      declaration.HasShape := by decide +kernel
  have hrun : ((modulesOf {} Sample.request.files).map
      (·.map ClientModule.importedOutputs)) = .ok [[], ["shop/item.pb.ts"]] := by decide +kernel
  obtain ⟨modules, hok⟩ : ∃ modules, modulesOf {} Sample.request.files = .ok modules :=
    exists_of_isOk (by decide +kernel)
  rw [hok] at hrun
  exact ⟨hd, hp, hs, modules, hok, Except.ok.inj hrun, closedSystem_of_modulesOf hok hd hp hs⟩

end ProtoClient
