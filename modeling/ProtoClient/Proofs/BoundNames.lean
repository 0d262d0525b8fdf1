import ProtoClient.Proofs.ClosedSystem
import ProtoClient.Proofs.RegisteredIdentifiers

/-!
# When a module binds a name twice

A module binds names of two kinds. Those of the declarations, its own and the imported ones, are
identifiers of qualified names and differ when these do; a base type has two `$` next to each other
in its name, which no identifier has. The names of the shared fetch module and of what oneofs are
written with are fixed, though, and nothing keeps an identifier apart from them: a message called
`fm` in a file without a package is bound beside the shared fetch module of that name. It is only
then that a module binds a name twice.

## Main definitions

* `ClientModule.helperNames`: the fixed names that a module binds
* `ClientModule.declaredNames`: the names that a module binds to declarations
* `serviceNames files`: the qualified names of the services in files

## Main results

* `nodup_declaredNames`: no two declarations are bound to one name
* `isPlain_of_mem_boundNames`: whatever is bound is a plain name
* `nodup_boundNames_iff`: a module binds no name twice unless a declaration has a fixed name
* `boundNames_of_message_fm`: a message `fm` is bound beside the shared fetch module
-/

namespace ProtoClient

open Text

variable {options : Options} {registry : Registry} {files : List File} {file : File}
  {modules : List ClientModule} {module : ClientModule}

/-- **The fixed names that a module binds**: for the shared fetch module, and for what oneofs are
written with. -/
def ClientModule.helperNames (module : ClientModule) : List String :=
  (if module.fetch.isSome then ["fm"] else []) ++
    if module.objects.any (!·.choices.isEmpty) then ["Absent", "OneOf"] else []

/-- **The names that a module binds to declarations**, those of other files first. -/
def ClientModule.declaredNames (module : ClientModule) : List String :=
  module.imports.flatMap Import.identifiers ++ (module.enums.map StringEnum.identifier ++
    (module.objects.map ObjectType.identifier ++ module.clients.map Client.identifier))

/-- The names that a module binds to the base types of object types with oneofs. -/
def ClientModule.baseNames (module : ClientModule) : List String :=
  (module.objects.filter (!·.choices.isEmpty)).map ObjectType.baseName

/-- The qualified names of the services in files. -/
def serviceNames (files : List File) : List String :=
  files.flatMap fun file => file.services.map fun service => qualify file.package service.name

theorem ClientModule.boundNames_perm (module : ClientModule) :
    module.boundNames.Perm (module.helperNames ++ (module.baseNames ++ module.declaredNames)) := by
  rw [List.perm_iff_count]
  intro name
  simp only [boundNames, helperNames, baseNames, declaredNames, List.count_append]
  omega

theorem ClientModule.nodup_helperNames (module : ClientModule) : module.helperNames.Nodup := by
  unfold helperNames
  split <;> split <;> decide

/-! ### What names are bound to -/

/-- The object types of a module are called by the names of the messages that its file shows. -/
theorem ClientModule.identifiers_objects (h : ofFile? registry options file = .ok module) :
    module.objects.map ObjectType.identifier =
      (file.shownMessages.map Prod.fst).map identifier := by
  obtain ⟨objects, clients, ho, -, rfl⟩ := ofFile?_eq_ok_iff.mp h
  rw [List.map_map]
  apply map_of_mapM _ ho
  intro shown object hobject
  obtain ⟨properties, -, rfl⟩ := Message.objectType_eq_ok_iff.mp hobject
  rfl

theorem ClientModule.identifiers_enums (h : ofFile? registry options file = .ok module) :
    module.enums.map StringEnum.identifier =
      (file.shownEnums.map Prod.fst).map identifier := by
  obtain ⟨objects, clients, -, -, rfl⟩ := ofFile?_eq_ok_iff.mp h
  rw [List.map_map]
  exact List.map_map

/-- The clients of a module are called by the qualified names of the services of its file. -/
theorem ClientModule.identifiers_clients (h : ofFile? registry options file = .ok module) :
    module.clients.map Client.identifier =
      (file.services.map fun service => qualify file.package service.name).map identifier := by
  obtain ⟨objects, clients, -, hc, rfl⟩ := ofFile?_eq_ok_iff.mp h
  rw [List.map_map]
  apply map_of_mapM _ hc
  intro service client hclient
  obtain ⟨operations, -, rfl⟩ := Service.client_eq_ok_iff.mp hclient
  rfl

/-- A selection from a list, seen through `q`, is one from what the list is seen as through `p`. -/
theorem map_filterMap_sublist {α β γ : Type} {f : α → Option β} {p : α → γ} {q : β → γ}
    (h : ∀ a b, f a = some b → q b = p a) (as : List α) :
    ((as.filterMap f).map q).Sublist (as.map p) := by
  induction as with
  | nil => exact .slnil
  | cons a as ih =>
    rw [List.map_cons]
    cases hf : f a with
    | none =>
      rw [List.filterMap_cons_none hf]
      exact ih.cons _
    | some b =>
      rw [List.filterMap_cons_some hf, List.map_cons, h a b hf]
      exact ih.cons_cons _

theorem File.names_shownMessages_sublist (file : File) :
    (file.shownMessages.map Prod.fst).Sublist (file.declarations.map Declaration.name) := by
  apply map_filterMap_sublist
  rintro ⟨name, _ | _, _ | _⟩ shown h <;> cases h
  rfl

theorem File.names_shownEnums_sublist (file : File) :
    (file.shownEnums.map Prod.fst).Sublist (file.declarations.map Declaration.name) := by
  apply map_filterMap_sublist
  rintro ⟨name, _ | _, _ | _⟩ shown h <;> cases h
  rfl

section Registered

variable (hreg : Registry.ofFiles files = .ok registry)
  (h : ClientModule.ofFile? registry options file = .ok module)

include hreg h

/-- What a module refers to is a registered type. -/
theorem exists_declared_of_mem_references {target : Reference}
    (ht : target ∈ module.types.flatMap TypeExpr.references) :
    ∃ type ∈ declaredTypes files, type.reference = target := by
  have hholds := Registry.ofFiles_eq_ok_iff.mp hreg
  obtain ⟨expr, hexpr, ht⟩ := List.mem_flatMap.mp ht
  obtain ⟨part, hpart, ht⟩ := TypeExpr.mem_references_iff_target?.mp ht
  obtain ⟨outer, houter⟩ := ClientModule.exists_resolves_of_mem_types h hexpr
  obtain ⟨inner, hinner⟩ := houter.exists_of_mem_parts hpart
  cases hinner with
  | scalar scalar => cases ht
  | wellKnown hb => cases ht
  | map hb hf hk hkey hvalue => cases ht
  | object hb hf hk => exact ⟨_, (hholds.get?_iff.mp hf).1, Option.some.inj ht⟩
  | enumeration hb hf hk => exact ⟨_, (hholds.get?_iff.mp hf).1, Option.some.inj ht⟩

/-- An imported name is the identifier of a type that another file declares. -/
theorem exists_declared_of_mem_importFrom {other id : String}
    (hother : other ∈ importedFiles module.name module.output
      (module.types.flatMap TypeExpr.references))
    (hid : id ∈ (importFrom module.output (module.types.flatMap TypeExpr.references)
      other).identifiers) :
    ∃ type ∈ declaredTypes files, identifier type.name = id ∧ type.file = other ∧
      other ≠ module.name := by
  obtain ⟨target, htarget, hfile, rfl⟩ := mem_identifiers_importFrom.mp hid
  obtain ⟨type, htype, rfl⟩ := exists_declared_of_mem_references hreg h htarget
  exact ⟨type, htype, rfl, hfile, (mem_importedFiles.mp hother).2.1⟩

end Registered

/-- The name of an enum in a module is the identifier of an enum that its file declares. -/
theorem exists_declared_of_mem_enums (h : ClientModule.ofFile? registry options file = .ok module)
    (hf : file ∈ files) {id : String} (hid : id ∈ module.enums.map StringEnum.identifier) :
    ∃ type ∈ declaredTypes files, identifier type.name = id ∧ type.file = module.name ∧
      type.kind = .enumeration := by
  rw [ClientModule.identifiers_enums h, List.map_map] at hid
  obtain ⟨⟨name, enum⟩, hshown, rfl⟩ := List.mem_map.mp hid
  have hd := File.mem_shownEnums.mp hshown
  exact ⟨_, mem_declaredTypes.mpr ⟨file, hf, _, hd, rfl⟩, rfl,
    (ClientModule.name_of_ofFile? h).symm, rfl⟩

/-- The name of an object type is the identifier of a message that its file declares. -/
theorem exists_declared_of_mem_objects
    (h : ClientModule.ofFile? registry options file = .ok module) (hf : file ∈ files)
    {id : String} (hid : id ∈ module.objects.map ObjectType.identifier) :
    ∃ type ∈ declaredTypes files, identifier type.name = id ∧ type.file = module.name ∧
      type.kind ≠ .enumeration := by
  rw [ClientModule.identifiers_objects h, List.map_map] at hid
  obtain ⟨⟨name, message⟩, hshown, rfl⟩ := List.mem_map.mp hid
  have hd := File.mem_shownMessages.mp hshown
  exact ⟨_, mem_declaredTypes.mpr ⟨file, hf, _, hd, rfl⟩, rfl,
    (ClientModule.name_of_ofFile? h).symm, TypeKind.noConfusion⟩

/-- The name of a client is the identifier of a service of its file. -/
theorem exists_service_of_mem_clients
    (h : ClientModule.ofFile? registry options file = .ok module) {id : String}
    (hid : id ∈ module.clients.map Client.identifier) :
    ∃ service ∈ file.services, identifier (qualify file.package service.name) = id := by
  rw [ClientModule.identifiers_clients h, List.map_map] at hid
  exact List.mem_map.mp hid

/-! ### Different names -/

theorem mem_serviceNames {name : String} :
    name ∈ serviceNames files ↔
      ∃ file ∈ files, ∃ service ∈ file.services, qualify file.package service.name = name := by
  simp [serviceNames]

/-- Dotted names that differ have identifiers that differ. -/
theorem nodup_map_identifier {names : List String} (hn : names.Nodup)
    (hd : ∀ name ∈ names, IsDotted name) : (names.map identifier).Nodup := by
  apply hn.map_on
  intro a ha b hb heq
  exact identifier_inj (hd a ha) (hd b hb) heq

/-- No two declarations of a registered file have one name. -/
theorem nodup_names_declarations (hreg : Registry.ofFiles files = .ok registry)
    (hf : file ∈ files) : (file.declarations.map Declaration.name).Nodup := by
  have hnodup := (Registry.ofFiles_eq_ok_iff.mp hreg).nodup
  rw [declaredTypes, List.map_flatMap, List.nodup_flatMap] at hnodup
  have hfile := hnodup.1 file hf
  have hname : Registered.name ∘ (Declaration.registered file.name) = Declaration.name :=
    funext (Declaration.name_registered file.name)
  rwa [File.types, List.map_map, hname] at hfile

/-- Files that are named by words declare words. -/
theorem declaresWords_of_isWorded (hw : ∀ file ∈ files, file.IsWorded) :
    ∀ file ∈ files, file.DeclaresWords :=
  fun file hf => (hw file hf).toDeclaresWords

section Different

variable (hw : ∀ file ∈ files, file.IsWorded)

include hw

theorem isDotted_of_mem_serviceNames {name : String} (hn : name ∈ serviceNames files) :
    IsDotted name := by
  obtain ⟨file, hf, service, hs, rfl⟩ := mem_serviceNames.mp hn
  exact isDotted_qualify (hw file hf).package ((hw file hf).services service hs)

variable (hreg : Registry.ofFiles files = .ok registry)

include hreg

/-- A service whose name is not registered has an identifier that no type has. -/
theorem identifier_ne_of_service {type : Registered} (ht : type ∈ declaredTypes files)
    {name : String} (hn : name ∈ serviceNames files) (hfree : registry.get? name = none) :
    identifier type.name ≠ identifier name := by
  intro heq
  have hname := identifier_inj (isDotted_of_mem_declaredTypes (declaresWords_of_isWorded hw) ht)
    (isDotted_of_mem_serviceNames hw hn) heq
  have hget := (Registry.ofFiles_eq_ok_iff.mp hreg).get?_iff.mpr ⟨ht, hname⟩
  rw [hfree] at hget
  cases hget

/-- The identifiers of types that a file declares differ. -/
theorem nodup_identifiers_of_sublist (hf : file ∈ files) {names : List String}
    (hsub : names.Sublist (file.declarations.map Declaration.name)) :
    (names.map identifier).Nodup := by
  apply nodup_map_identifier ((nodup_names_declarations hreg hf).sublist hsub)
  intro name hn
  obtain ⟨declaration, hd, rfl⟩ := List.mem_map.mp (hsub.subset hn)
  exact (hw file hf).toDeclaresWords.isDotted hd

variable (h : ClientModule.ofFile? registry options file = .ok module)

include h

/-- No two object types have one name. -/
theorem nodup_objects (hf : file ∈ files) :
    (module.objects.map ObjectType.identifier).Nodup := by
  rw [ClientModule.identifiers_objects h]
  exact nodup_identifiers_of_sublist hw hreg hf file.names_shownMessages_sublist

/-- No name is imported twice. -/
theorem nodup_imported : (module.imports.flatMap Import.identifiers).Nodup := by
  rw [ClientModule.imports_of_ofFile? h, importsOf_eq_map, List.flatMap_map, List.nodup_flatMap]
  constructor
  · intro other hother
    exact (pairwise_sortNames _).imp fun hlt => String.ne_of_lt hlt
  · have hnodup : (importedFiles module.name module.output
        (module.types.flatMap TypeExpr.references)).Nodup :=
      (pairwise_sortNames _).imp fun hlt => String.ne_of_lt hlt
    refine hnodup.imp_of_mem ?_
    intro a b ha hb hne id hida hidb
    obtain ⟨type, ht, rfl, rfl, -⟩ := exists_declared_of_mem_importFrom hreg h ha hida
    obtain ⟨other, ho, heq, rfl, -⟩ := exists_declared_of_mem_importFrom hreg h hb hidb
    exact hne (congrArg Registered.file
      (eq_of_identifier_eq (declaresWords_of_isWorded hw) hreg ht ho heq.symm))

variable (hf : file ∈ files) (hs : (serviceNames files).Nodup)
  (hfree : ∀ name ∈ serviceNames files, registry.get? name = none)

include hf hs hfree

/-- **No two declarations are bound to one name** in a module, wherever they come from. -/
theorem nodup_declaredNames : module.declaredNames.Nodup := by
  have henums : (module.enums.map StringEnum.identifier).Nodup := by
    rw [ClientModule.identifiers_enums h]
    exact nodup_identifiers_of_sublist hw hreg hf file.names_shownEnums_sublist
  have hclients : (module.clients.map Client.identifier).Nodup := by
    rw [ClientModule.identifiers_clients h]
    apply nodup_map_identifier ((List.nodup_flatMap.mp hs).1 file hf)
    intro name hn
    exact isDotted_of_mem_serviceNames hw (List.mem_flatMap.mpr ⟨file, hf, hn⟩)
  have hclient {type : Registered} (ht : type ∈ declaredTypes files) :
      ∀ id ∈ module.clients.map Client.identifier, identifier type.name ≠ id := by
    intro id hid
    obtain ⟨service, hservice, rfl⟩ := exists_service_of_mem_clients h hid
    have hn := mem_serviceNames.mpr ⟨file, hf, service, hservice, rfl⟩
    exact identifier_ne_of_service hw hreg ht hn (hfree _ hn)
  unfold ClientModule.declaredNames
  rw [List.nodup_append, List.nodup_append, List.nodup_append]
  refine ⟨nodup_imported hw hreg h, ⟨henums, ⟨nodup_objects hw hreg h hf, hclients, ?_⟩, ?_⟩, ?_⟩
  · intro a ha b hb
    obtain ⟨type, ht, rfl, -, -⟩ := exists_declared_of_mem_objects h hf ha
    exact hclient ht b hb
  · intro a ha b hb
    obtain ⟨type, ht, rfl, -, hkind⟩ := exists_declared_of_mem_enums h hf ha
    rcases List.mem_append.mp hb with hb | hb
    · obtain ⟨other, ho, rfl, -, hkind'⟩ := exists_declared_of_mem_objects h hf hb
      intro heq
      exact hkind' (eq_of_identifier_eq (declaresWords_of_isWorded hw) hreg ht ho heq ▸ hkind)
    · exact hclient ht b hb
  · intro a ha b hb
    obtain ⟨entry, he, ha⟩ := List.mem_flatMap.mp ha
    rw [ClientModule.imports_of_ofFile? h, importsOf_eq_map] at he
    obtain ⟨other, hother, rfl⟩ := List.mem_map.mp he
    obtain ⟨type, ht, rfl, rfl, hne⟩ := exists_declared_of_mem_importFrom hreg h hother ha
    have hown {own : Registered} (ho : own ∈ declaredTypes files) (hfile : own.file = module.name) :
        identifier type.name ≠ identifier own.name := by
      intro heq
      exact hne (eq_of_identifier_eq (declaresWords_of_isWorded hw) hreg ht ho heq ▸ hfile)
    rcases List.mem_append.mp hb with hb | hb
    · obtain ⟨own, ho, rfl, hfile, -⟩ := exists_declared_of_mem_enums h hf hb
      exact hown ho hfile
    rcases List.mem_append.mp hb with hb | hb
    · obtain ⟨own, ho, rfl, hfile, -⟩ := exists_declared_of_mem_objects h hf hb
      exact hown ho hfile
    · exact hclient ht b hb

omit hs hfree in
/-- The names that a module binds to declarations are identifiers of what stands in a scope, and in
a proper one when all files have packages. -/
theorem exists_scope_of_mem_declaredNames {id : String} (hid : id ∈ module.declaredNames) :
    ∃ scope word, IsScope scope ∧ isWord word.toList = true ∧ id = identifier (qualify scope word) ∧
      ((∀ file ∈ files, file.package ≠ "") → scope ≠ "") := by
  have htype {type : Registered} (ht : type ∈ declaredTypes files)
      (heq : identifier type.name = id) :
      ∃ scope word, IsScope scope ∧ isWord word.toList = true ∧
        id = identifier (qualify scope word) ∧
        ((∀ file ∈ files, file.package ≠ "") → scope ≠ "") := by
    obtain ⟨scope, word, hscope, hword, hname, hne⟩ := exists_scope_of_mem_declaredTypes
      (declaresWords_of_isWorded hw) ht
    exact ⟨scope, word, hscope, hword, by rw [← heq, hname], hne⟩
  simp only [ClientModule.declaredNames, List.mem_append] at hid
  rcases hid with hid | hid | hid | hid
  · obtain ⟨entry, he, hid⟩ := List.mem_flatMap.mp hid
    rw [ClientModule.imports_of_ofFile? h, importsOf_eq_map] at he
    obtain ⟨other, hother, rfl⟩ := List.mem_map.mp he
    obtain ⟨type, ht, heq, -⟩ := exists_declared_of_mem_importFrom hreg h hother hid
    exact htype ht heq
  · obtain ⟨type, ht, heq, -⟩ := exists_declared_of_mem_enums h hf hid
    exact htype ht heq
  · obtain ⟨type, ht, heq, -⟩ := exists_declared_of_mem_objects h hf hid
    exact htype ht heq
  · obtain ⟨service, hservice, rfl⟩ := exists_service_of_mem_clients h hid
    exact ⟨_, _, (hw file hf).package, (hw file hf).services service hservice, rfl,
      fun hp => hp file hf⟩

end Different

/-! ### Base types -/

theorem ClientModule.nodup_baseNames (hn : (module.objects.map ObjectType.identifier).Nodup) :
    module.baseNames.Nodup := by
  have hown : ((module.objects.filter (!·.choices.isEmpty)).map ObjectType.identifier).Nodup :=
    hn.sublist (List.filter_sublist.map _)
  have heq : module.baseNames = ((module.objects.filter (!·.choices.isEmpty)).map
      ObjectType.identifier).map (· ++ "$$Base") := by
    rw [List.map_map]
    rfl
  rw [heq]
  apply hown.map
  intro a b hab
  simpa using hab

theorem ClientModule.mem_of_mem_helperNames {name : String} (hn : name ∈ module.helperNames) :
    name ∈ ["fm", "Absent", "OneOf"] := by
  unfold helperNames at hn
  split at hn <;> split at hn <;> simp_all

/-! ### Names in the lines -/

/-- Whatever a module of files that are named by words binds is a plain name. -/
theorem isPlain_of_mem_boundNames (hreg : Registry.ofFiles files = .ok registry)
    (hw : ∀ file ∈ files, file.IsWorded)
    (h : ClientModule.ofFile? registry options file = .ok module) (hf : file ∈ files)
    {name : String} (hn : name ∈ module.boundNames) :
    isPlain name.toList = true := by
  have hdeclared {id : String} (hid : id ∈ module.declaredNames) : isPlain id.toList = true := by
    obtain ⟨scope, word, hs, hword, rfl, -⟩ :=
      exists_scope_of_mem_declaredNames hw hreg h hf hid
    exact isPlain_identifier (isDotted_qualify hs hword)
  rcases List.mem_append.mp (module.boundNames_perm.mem_iff.mp hn) with hn | hn
  · have hhelper : ∀ name ∈ ["fm", "Absent", "OneOf"], isPlain name.toList = true := by decide
    exact hhelper name (ClientModule.mem_of_mem_helperNames hn)
  rcases List.mem_append.mp hn with hn | hn
  · obtain ⟨object, ho, rfl⟩ := List.mem_map.mp hn
    rw [ObjectType.baseName, String.toList_append]
    refine isPlain_append (hdeclared ?_) rfl
    exact List.mem_append_right _ (List.mem_append_right _ (List.mem_append_left _
      (List.mem_map_of_mem (List.mem_of_mem_filter ho))))
  · exact hdeclared hn

/-- Nothing is imported without a name. -/
theorem identifiers_ne_nil_of_mem_imports
    (h : ClientModule.ofFile? registry options file = .ok module) {imported : Import}
    (hi : imported ∈ module.imports) : imported.identifiers ≠ [] := by
  rw [ClientModule.imports_of_ofFile? h, importsOf_eq_map] at hi
  obtain ⟨other, hother, rfl⟩ := List.mem_map.mp hi
  obtain ⟨⟨target, ht, hfile⟩, -⟩ := mem_importedFiles.mp hother
  exact List.ne_nil_of_mem (mem_identifiers_importFrom.mpr ⟨target, ht, hfile, rfl⟩)

/-! ### Bound names -/

/-- The fixed names that a module binds have no `$`. -/
theorem ClientModule.notMem_of_mem_helperNames {name : String} (hn : name ∈ module.helperNames) :
    '$' ∉ name.toList := by
  have hnone : ∀ name ∈ ["fm", "Absent", "OneOf"], '$' ∉ name.toList := by decide
  exact hnone name (mem_of_mem_helperNames hn)

/-- **A module binds no name twice unless a declaration has a fixed name**, which no declaration has
when all files have packages. The names that it binds are those that can be read off its lines. -/
theorem nodup_boundNames_iff (hreg : Registry.ofFiles files = .ok registry)
    (hok : modulesOf options files = .ok modules) (hw : ∀ file ∈ files, file.IsWorded)
    (hs : (serviceNames files).Nodup)
    (hfree : ∀ name ∈ serviceNames files, registry.get? name = none) (hm : module ∈ modules) :
    (module.lines.flatMap namesBoundBy).Perm module.boundNames ∧
      (module.boundNames.Nodup ↔ ∀ name ∈ module.helperNames, name ∉ module.declaredNames) ∧
      ((∀ file ∈ files, file.package ≠ "") → module.boundNames.Nodup) := by
  obtain ⟨registry', hreg', hmods⟩ := modulesOf_eq_ok_iff.mp hok
  cases hreg.symm.trans hreg'
  obtain ⟨file, hf, hfile⟩ := exists_of_mem_of_mapM hmods hm
  have hscope := @exists_scope_of_mem_declaredNames _ _ _ _ _ hw hreg hfile hf
  have hbase {name : String} (hn : name ∈ module.baseNames) : "" ∈ split '$' name := by
    obtain ⟨object, -, rfl⟩ := List.mem_map.mp hn
    exact mem_split_base object.identifier
  have hdeclared : ∀ a ∈ module.baseNames, ∀ b ∈ module.declaredNames, a ≠ b := by
    rintro a ha b hb rfl
    obtain ⟨scope, word, hs, hword, rfl, -⟩ := hscope hb
    exact notMem_split_identifier (isDotted_qualify hs hword) (hbase ha)
  have hhelper : ∀ a ∈ module.helperNames, a ∉ module.baseNames := by
    intro a ha hb
    have hmem := hbase hb
    rw [split_of_notMem (ClientModule.notMem_of_mem_helperNames ha), List.mem_singleton] at hmem
    exact absurd (hmem ▸ ClientModule.mem_of_mem_helperNames ha) (by decide)
  have hiff : module.boundNames.Nodup ↔
      ∀ name ∈ module.helperNames, name ∉ module.declaredNames := by
    rw [module.boundNames_perm.nodup_iff, List.nodup_append, List.nodup_append]
    constructor
    · rintro ⟨-, -, hdisjoint⟩ name hn hd
      exact hdisjoint name hn name (List.mem_append_right _ hd) rfl
    · intro hdisjoint
      refine ⟨module.nodup_helperNames, ⟨?_, ?_, hdeclared⟩, ?_⟩
      · exact ClientModule.nodup_baseNames (nodup_objects hw hreg hfile hf)
      · exact nodup_declaredNames hw hreg hfile hf hs hfree
      · rintro a ha b hb rfl
        exact (List.mem_append.mp hb).elim (hhelper a ha) (hdisjoint a ha)
  have hlines := ClientModule.namesBoundBy_lines
    (fun imported hi => identifiers_ne_nil_of_mem_imports hfile hi)
    (fun name hn => isPlain_of_mem_boundNames hreg hw hfile hf hn)
  refine ⟨hlines, hiff, fun hp => hiff.mpr ?_⟩
  intro name hn hd
  obtain ⟨scope, word, hs, hword, rfl, hne⟩ := hscope hd
  exact ClientModule.notMem_of_mem_helperNames hn (mem_identifier_qualify hs (hne hp) hword)

/-- An order of an item, which is paid in one of two ways, and the service that takes it. -/
def Sample.order : File where
  name := "shop/order.proto"
  package := "shop"
  dependencies := ["shop/item.proto"]
  messages := [⟨"Order", [
    ⟨"item", 1, none, .optional, .named ".shop.item.Item", none, false⟩,
    ⟨"card", 2, none, .optional, .scalar .string, some 0, false⟩,
    ⟨"cash", 3, none, .optional, .scalar .bool, some 0, false⟩], [], [], ["payment"], false⟩]
  enums := []
  services := [⟨"Orders", [⟨"Place", ".shop.Order", ".shop.Order", false, false,
    some ⟨.post, "/v1/orders", some "*"⟩⟩]⟩]

/-- The file that the order imports from. -/
def Sample.orderedItem : File where
  name := "shop/item.proto"
  package := "shop.item"
  dependencies := []
  messages := [⟨"Item", [], [], [], [], false⟩]
  enums := []
  services := []

/-- The module of the order binds names of each kind, and none of them twice. -/
theorem nodup_boundNames_order :
    ∃ registry modules module,
      Registry.ofFiles [Sample.order, Sample.orderedItem] = .ok registry ∧
      modulesOf {} [Sample.order, Sample.orderedItem] = .ok modules ∧
      (∀ file ∈ [Sample.order, Sample.orderedItem], file.IsWorded) ∧
      (serviceNames [Sample.order, Sample.orderedItem]).Nodup ∧
      (∀ name ∈ serviceNames [Sample.order, Sample.orderedItem], registry.get? name = none) ∧
      module ∈ modules ∧ (∀ file ∈ [Sample.order, Sample.orderedItem], file.package ≠ "") ∧
      module.boundNames = ["fm", "shop$item$Item", "Absent", "OneOf", "shop$Order$$Base",
        "shop$Order", "shop$Orders"] ∧
      (module.lines.flatMap namesBoundBy).Perm module.boundNames ∧
      (module.boundNames.Nodup ↔ ∀ name ∈ module.helperNames, name ∉ module.declaredNames) ∧
      module.boundNames.Nodup := by
  have hw : ∀ file ∈ [Sample.order, Sample.orderedItem], file.IsWorded := by decide +kernel
  have hs : (serviceNames [Sample.order, Sample.orderedItem]).Nodup := by decide +kernel
  have hp : ∀ file ∈ [Sample.order, Sample.orderedItem], file.package ≠ "" := by decide
  obtain ⟨registry, hreg, hfree⟩ : ∃ registry,
      Registry.ofFiles [Sample.order, Sample.orderedItem] = .ok registry ∧
        (serviceNames [Sample.order, Sample.orderedItem]).map (NameMap.get? registry) = [none] :=
    map_eq_ok_iff.mp (by decide +kernel)
  obtain ⟨modules, hok, hnames⟩ : ∃ modules,
      modulesOf {} [Sample.order, Sample.orderedItem] = .ok modules ∧
        modules.map ClientModule.boundNames = [["fm", "shop$item$Item", "Absent", "OneOf",
          "shop$Order$$Base", "shop$Order", "shop$Orders"], ["shop$item$Item"]] :=
    map_eq_ok_iff.mp (by decide +kernel)
  obtain ⟨module, rest, rfl, hname, -⟩ := List.map_eq_cons_iff.mp hnames
  have hfree' : ∀ name ∈ serviceNames [Sample.order, Sample.orderedItem],
      registry.get? name = none := by
    intro name hn
    simpa [hfree] using List.mem_map_of_mem (f := NameMap.get? registry) hn
  obtain ⟨hlines, hiff, hnodup⟩ := nodup_boundNames_iff hreg hok hw hs hfree' List.mem_cons_self
  exact ⟨registry, _, module, hreg, hok, hw, hs, hfree', List.mem_cons_self, hp, hname, hlines,
    hiff, hnodup hp⟩

/-- A file without a package that declares the message `fm`, which can be asked for over HTTP. -/
def Sample.radio : File where
  name := "radio.proto"
  package := ""
  dependencies := []
  messages := [⟨"fm", [], [], [], [], false⟩]
  enums := []
  services := [⟨"Radio", [⟨"Tune", ".fm", ".fm", false, false, some ⟨.get, "/fm", none⟩⟩]⟩]

/-- **A message `fm` is bound beside the shared fetch module.** -/
theorem boundNames_of_message_fm :
    Sample.radio.IsWorded ∧ ([Sample.radio].map File.name).Nodup ∧
      (serviceNames [Sample.radio]).Nodup ∧
      (∃ registry, Registry.ofFiles [Sample.radio] = .ok registry ∧
        (serviceNames [Sample.radio]).map (NameMap.get? registry) = [none]) ∧
      ∃ module, modulesOf {} [Sample.radio] = .ok [module] ∧
        module.importLines = ["import * as fm from \"./fetch.pb\"", ""] ∧
        module.objects.flatMap ObjectType.lines = ["export type fm = \x7b", "\x7d"] ∧
        module.lines.flatMap namesBoundBy = ["fm", "fm", "Radio"] ∧
        module.boundNames = ["fm", "fm", "Radio"] ∧ ¬module.boundNames.Nodup := by
  refine ⟨by decide +kernel, by decide, by decide +kernel,
    map_eq_ok_iff.mp (by decide +kernel), ?_⟩
  obtain ⟨modules, hok, hmodules⟩ : ∃ modules, modulesOf {} [Sample.radio] = .ok modules ∧
      modules.map (fun module => (module.importLines, module.objects.flatMap ObjectType.lines,
        module.lines.flatMap namesBoundBy, module.boundNames)) =
          [(["import * as fm from \"./fetch.pb\"", ""], ["export type fm = \x7b", "\x7d"],
            ["fm", "fm", "Radio"], ["fm", "fm", "Radio"])] :=
    map_eq_ok_iff.mp (by decide +kernel)
  obtain ⟨module, rfl, heq⟩ := List.map_eq_singleton_iff.mp hmodules
  simp only [Prod.mk.injEq] at heq
  obtain ⟨himports, hobjects, hlines, hname⟩ := heq
  exact ⟨module, hok, himports, hobjects, hlines, hname, by rw [hname]; decide⟩

end ProtoClient
