import ProtoClient.Proofs.Generation
import ProtoClient.Proofs.Registration

/-!
# A file that is not referred to changes nothing

Resolution looks names up in the registry of all files, and falls back on something else where it
finds nothing. A registry with more types in it gives the same modules as long as it answers alike
for the names that are asked for. These are the names that the files mention: the types of their
fields, and the inputs and outputs of their methods. They are closed under resolution, as whatever
is found is declared in one of the files.

## Main definitions

* `File.mentions`: the type names that a file mentions
* `Registry.SameFor names registry larger`: two registries answer alike for the names, which are
  closed under resolution

## Main results

* `ClientModule.ofFile?_of_sameFor`: a file has the same module under both registries
* `generate_insert_unrelated`: a run puts out the same with an unrelated file among its files
-/

namespace ProtoClient

variable {options : Options} {names : String → Prop} {registry larger : Registry} {source : String}

/-! ### Names that are mentioned -/

/-- The type name that a field type mentions. -/
def FieldType.typeName? : FieldType → Option String
  | .named name => some name
  | .scalar _ => none

/-- The fields of what is declared; an enum has none. -/
def Declaration.fields (declaration : Declaration) : List Field :=
  match declaration.declared with
  | .message message => message.fields
  | .enumeration _ => []

/-- **The type names that a file mentions**, as the type of a field or as the input or output of a
method. -/
def File.mentions (file : File) : List String :=
  (file.declarations.flatMap Declaration.fields).filterMap (·.type.typeName?) ++
    file.services.flatMap fun service =>
      service.methods.flatMap fun method => [method.input, method.output]

theorem File.mem_mentions_of_field {file : File} {declaration : Declaration} {field : Field}
    {name : String} (hd : declaration ∈ file.declarations) (hf : field ∈ declaration.fields)
    (hn : field.type.typeName? = some name) : name ∈ file.mentions := by
  apply List.mem_append_left
  exact List.mem_filterMap.mpr ⟨field, List.mem_flatMap.mpr ⟨declaration, hd, hf⟩, hn⟩

theorem File.mem_mentions_of_method {file : File} {service : Service} {method : Method}
    {name : String} (hs : service ∈ file.services) (hm : method ∈ service.methods)
    (hn : name ∈ [method.input, method.output]) : name ∈ file.mentions := by
  apply List.mem_append_right
  exact List.mem_flatMap.mpr ⟨service, hs, List.mem_flatMap.mpr ⟨method, hm, hn⟩⟩

/-- The field type mentions none but these names. -/
def FieldType.Within (names : String → Prop) (type : FieldType) : Prop :=
  ∀ name, type.typeName? = some name → names name

@[simp] theorem FieldType.within_named {name : String} :
    (FieldType.named name).Within names ↔ names name := by
  constructor
  · intro h
    exact h name rfl
  · intro h other ho
    cases ho
    exact h

theorem Declaration.fields_registered (file : String) (declaration : Declaration) :
    (declaration.registered file).fields = declaration.fields := by
  unfold Declaration.registered Declaration.fields
  cases declaration.declared with
  | message message => rfl
  | enumeration enum => rfl

/-- The key and the value of a map entry are of the types of fields. -/
theorem Declaration.within_of_entry {declaration : Declaration} {entry : MapEntry} {file : String}
    (hk : (declaration.registered file).kind = .message (some entry))
    (hf : ∀ field ∈ declaration.fields, field.type.Within names) :
    entry.key.Within names ∧ entry.value.Within names := by
  unfold Declaration.registered at hk
  unfold Declaration.fields at hf
  split at hk
  · next message hm =>
    rw [hm] at hf
    have hentry : message.mapEntry = some entry := TypeKind.message.inj hk
    unfold Message.mapEntry at hentry
    split at hentry
    · split at hentry
      · next key value hkey hvalue =>
        cases hentry
        exact ⟨hf key (List.mem_of_find?_eq_some hkey), hf value (List.mem_of_find?_eq_some hvalue)⟩
      · cases hentry
    · cases hentry
  · cases hk

/-! ### Registries that answer alike -/

/-- **The registries answer alike for the names**, and whatever is found under one of them mentions
none but these names again. -/
structure Registry.SameFor (names : String → Prop) (registry larger : Registry) : Prop where
  find?_eq : ∀ {name}, names name → larger.find? name = registry.find? name
  within_field : ∀ {name type}, registry.find? name = some type →
    ∀ field ∈ type.fields, field.type.Within names
  within_entry : ∀ {name type entry}, registry.find? name = some type →
    type.kind = .message (some entry) → entry.key.Within names ∧ entry.value.Within names
  entryCount_le : registry.entryCount ≤ larger.entryCount

/-- A field type stands for the same under both registries, at any greater depth. -/
theorem resolveWithin_of_sameFor (h : registry.SameFor names larger) {type : FieldType}
    {expr : TypeExpr} {depth depth' : Nat} (ht : type.Within names) (hd : depth ≤ depth')
    (hok : resolveWithin registry source depth type = .ok expr) :
    resolveWithin larger source depth' type = .ok expr := by
  -- the induction is on the depth: the key and the value of a map are resolved one level deeper
  induction depth using Nat.strongRecOn generalizing depth' type expr with
  | ind depth ih =>
    cases type with
    | scalar scalar =>
      rw [resolveWithin] at hok ⊢
      exact hok
    | named name =>
      rw [resolveWithin_named_eq_ok_iff] at hok ⊢
      rw [h.find?_eq (FieldType.within_named.mp ht)]
      rcases hok with hb | ⟨hb, type, hf, hk | hk | ⟨entry, below, key, value, hk, rfl, hkey,
        hvalue, rfl⟩⟩
      · exact .inl hb
      · exact .inr ⟨hb, type, hf, .inl hk⟩
      · exact .inr ⟨hb, type, hf, .inr (.inl hk)⟩
      · obtain ⟨below', rfl⟩ : ∃ below', depth' = below' + 1 := ⟨depth' - 1, by omega⟩
        obtain ⟨hwk, hwv⟩ := h.within_entry hf hk
        exact .inr ⟨hb, type, hf, .inr (.inr ⟨entry, below', key, value, hk, rfl,
          ih below (by omega) hwk (by omega) hkey, ih below (by omega) hwv (by omega) hvalue, rfl⟩)⟩

theorem resolveType_of_sameFor (h : registry.SameFor names larger) {type : FieldType}
    {expr : TypeExpr} (ht : type.Within names) (hok : resolveType registry source type = .ok expr) :
    resolveType larger source type = .ok expr :=
  resolveWithin_of_sameFor h ht h.entryCount_le hok

/-- Property paths are the same under both registries, also where a name is not found. -/
theorem propertyPath_of_sameFor (h : registry.SameFor names larger) {type : Option Registered}
    (ht : ∀ found ∈ type, ∀ field ∈ found.fields, field.type.Within names)
    (segments : List String) :
    propertyPath larger options type segments = propertyPath registry options type segments := by
  induction segments generalizing type with
  | nil => rfl
  | cons segment rest ih =>
    have hnone : propertyPath larger options none rest = propertyPath registry options none rest :=
      ih (by simp)
    rw [propertyPath, propertyPath]
    cases hfield : type.bind (·.field? segment) with
    | none => exact congrArg _ hnone
    | some field =>
      obtain ⟨found, hfound, hf⟩ := Option.bind_eq_some_iff.mp hfield
      have hw := ht found hfound field (List.mem_of_find?_eq_some hf)
      refine congrArg (field.propertyName options.protoNames :: ·) ?_
      cases htype : field.type with
      | scalar scalar => exact hnone
      | named name =>
        rw [htype, FieldType.within_named] at hw
        show propertyPath larger options (larger.find? name) rest =
          propertyPath registry options (registry.find? name) rest
        rw [h.find?_eq hw]
        exact ih fun next hnext => h.within_field hnext

/-! ### Modules that stay the same -/

theorem Message.objectType_of_sameFor (h : registry.SameFor names larger) {message : Message}
    {name : String} {object : ObjectType}
    (hm : ∀ field ∈ message.fields, field.type.Within names)
    (hok : message.objectType registry options source name = .ok object) :
    message.objectType larger options source name = .ok object := by
  rw [Message.objectType_eq_ok_iff] at hok ⊢
  obtain ⟨properties, hprops, rfl⟩ := hok
  refine ⟨properties, mapM_eq_ok_of_forall ?_ hprops, rfl⟩
  intro field hf property hp
  obtain ⟨type, ht, hp⟩ := bind_eq_ok_iff.mp hp
  exact bind_eq_ok_iff.mpr ⟨type, resolveType_of_sameFor h (hm field hf) ht, hp⟩

theorem Method.operation_of_sameFor (h : registry.SameFor names larger) {method : Method}
    {binding : Binding} {operation : Operation} (hi : names method.input)
    (ho : names method.output)
    (hok : method.operation registry options source binding = .ok operation) :
    method.operation larger options source binding = .ok operation := by
  rw [Method.operation_eq_ok_iff] at hok ⊢
  obtain ⟨request, response, parameters, hq, hr, hp, rfl⟩ := hok
  refine ⟨request, response, parameters,
    resolveType_of_sameFor h (FieldType.within_named.mpr hi) hq,
    resolveType_of_sameFor h (FieldType.within_named.mpr ho) hr, hp, ?_⟩
  have hpath (segments : List String) :
      propertyPath larger options (registry.find? method.input) segments =
        propertyPath registry options (registry.find? method.input) segments :=
    propertyPath_of_sameFor h (fun found hfound => h.within_field hfound) segments
  simp only [Method.operationOf, bodyOf, h.find?_eq hi, hpath]

theorem Service.client_of_sameFor (h : registry.SameFor names larger) {service : Service}
    {package : String} {client : Client}
    (hs : ∀ method ∈ service.methods, names method.input ∧ names method.output)
    (hok : service.client registry options source package = .ok client) :
    service.client larger options source package = .ok client := by
  rw [Service.client_eq_ok_iff] at hok ⊢
  obtain ⟨operations, hops, rfl⟩ := hok
  refine ⟨operations, mapM_eq_ok_of_forall ?_ hops, rfl⟩
  rintro ⟨method, binding⟩ hmem operation hop
  obtain ⟨other, hother, hbound⟩ := List.mem_filterMap.mp hmem
  obtain ⟨_, -, heq⟩ := Option.map_eq_some_iff.mp hbound
  cases heq
  obtain ⟨hi, ho⟩ := hs method hother
  exact Method.operation_of_sameFor h hi ho hop

/-- **A file has the same module under both registries** when its names are among those for which
they answer alike. -/
theorem ClientModule.ofFile?_of_sameFor (h : registry.SameFor names larger) {file : File}
    {module : ClientModule} (hf : ∀ name ∈ file.mentions, names name)
    (hok : ofFile? registry options file = .ok module) :
    ofFile? larger options file = .ok module := by
  rw [ofFile?_eq_ok_iff] at hok ⊢
  obtain ⟨objects, clients, ho, hc, rfl⟩ := hok
  refine ⟨objects, clients, mapM_eq_ok_of_forall ?_ ho, mapM_eq_ok_of_forall ?_ hc, rfl⟩
  · rintro ⟨name, message⟩ hmem object hobj
    apply Message.objectType_of_sameFor h _ hobj
    intro field hfield other hother
    exact hf other (File.mem_mentions_of_field (File.mem_shownMessages.mp hmem) hfield hother)
  · intro service hmem client hcl
    refine Service.client_of_sameFor h (fun method hmethod => ⟨?_, ?_⟩) hcl
    · exact hf _ (File.mem_mentions_of_method hmem hmethod (by simp))
    · exact hf _ (File.mem_mentions_of_method hmem hmethod (by simp))

/-! ### An unrelated file -/

variable {extra : File} {files before after : List File}

/-- **The file is unrelated to the others**: it declares no name twice, and no name that one of the
others declares or mentions. -/
structure File.Unrelated (extra : File) (files : List File) : Prop where
  nodup : (extra.declarations.map Declaration.name).Nodup
  undeclared : ∀ file ∈ files, ∀ other ∈ file.declarations,
    other.name ∉ extra.declarations.map Declaration.name
  unmentioned : ∀ file ∈ files, ∀ name ∈ file.mentions,
    withoutDot name ∉ extra.declarations.map Declaration.name

theorem File.names_types (file : File) :
    file.types.map Registered.name = file.declarations.map Declaration.name := by
  unfold File.types
  rw [List.map_map]
  exact List.map_congr_left fun declaration _ => Declaration.name_registered _ _

/-- An unrelated file is registered among the others, wherever it stands. -/
theorem File.Unrelated.exists_registry (hu : extra.Unrelated (before ++ after))
    (h : registry.Holds (declaredTypes (before ++ after))) :
    ∃ larger, Registry.ofFiles (before ++ extra :: after) = .ok larger ∧
      larger.Holds (extra.types ++ declaredTypes (before ++ after)) := by
  have hperm : (declaredTypes (before ++ extra :: after)).Perm
      (extra.types ++ declaredTypes (before ++ after)) :=
    List.perm_middle.flatMap_right File.types
  have hnodup : ((extra.types ++ declaredTypes (before ++ after)).map Registered.name).Nodup := by
    rw [List.map_append, List.nodup_append]
    refine ⟨by rw [File.names_types]; exact hu.nodup, h.nodup, ?_⟩
    rintro name hn _ ho rfl
    obtain ⟨type, ht, rfl⟩ := List.mem_map.mp ho
    obtain ⟨file, hf, other, hother, rfl⟩ := mem_declaredTypes.mp ht
    rw [File.names_types, Declaration.name_registered] at hn
    exact hu.undeclared file hf other hother hn
  obtain ⟨larger, hl⟩ := Registry.exists_holds hnodup
  exact ⟨larger, Registry.ofFiles_eq_ok_iff.mpr (hl.perm hperm.symm), hl⟩

/-- **An unrelated file is not noticed**: the registries with it and without it answer alike for
what the other files mention. -/
theorem File.Unrelated.sameFor (hu : extra.Unrelated files)
    (h : registry.Holds (declaredTypes files))
    (hl : larger.Holds (extra.types ++ declaredTypes files)) :
    registry.SameFor (fun name => ∃ file ∈ files, name ∈ file.mentions) larger where
  find?_eq := by
    rintro name ⟨file, hf, hn⟩
    apply Option.ext
    intro type
    unfold Registry.find?
    rw [hl.get?_iff, h.get?_iff, List.mem_append]
    constructor
    · rintro ⟨hextra | hfiles, hname⟩
      · refine absurd ?_ (hu.unmentioned file hf name hn)
        rw [← hname, ← File.names_types]
        exact List.mem_map_of_mem hextra
      · exact ⟨hfiles, hname⟩
    · rintro ⟨hfiles, hname⟩
      exact ⟨.inr hfiles, hname⟩
  within_field := by
    intro name type hfind field hfield other hother
    obtain ⟨file, hf, declaration, hd, rfl⟩ := mem_declaredTypes.mp (h.get?_iff.mp hfind).1
    rw [Declaration.fields_registered] at hfield
    exact ⟨file, hf, File.mem_mentions_of_field hd hfield hother⟩
  within_entry := by
    intro name type entry hfind hkind
    obtain ⟨file, hf, declaration, hd, rfl⟩ := mem_declaredTypes.mp (h.get?_iff.mp hfind).1
    refine Declaration.within_of_entry hkind fun field hfield other hother => ⟨file, hf, ?_⟩
    exact File.mem_mentions_of_field hd hfield hother
  entryCount_le := by
    unfold Registry.entryCount
    rw [hl.values_perm.countP_eq, h.values_perm.countP_eq, List.countP_append]
    exact Nat.le_add_left _ _

/-- **An unrelated file changes nothing.** Wherever it stands among the files of a run whose modules
resolve, the run puts out the same, or fails alike, as long as it resolves itself and is not
requested. -/
theorem generate_insert_unrelated {options : Options} (renderer : Renderer) (probe : Probe)
    {requested : List String} {modules : List ClientModule} {own : ClientModule}
    (hok : modulesOf options (before ++ after) = .ok modules)
    (hu : extra.Unrelated (before ++ after)) (hreq : extra.name ∉ requested)
    (hextra : (Registry.ofFiles (before ++ extra :: after)).mapError .fault >>=
      (ClientModule.ofFile? · options extra) = .ok own) :
    generate options renderer probe ⟨before ++ extra :: after, requested⟩ =
      generate options renderer probe ⟨before ++ after, requested⟩ := by
  obtain ⟨registry, hreg, hmods⟩ := modulesOf_eq_ok_iff.mp hok
  have hholds := Registry.ofFiles_eq_ok_iff.mp hreg
  obtain ⟨larger, hlarger, hl⟩ := hu.exists_registry hholds
  rw [hlarger] at hextra
  have hown : ClientModule.ofFile? larger options extra = .ok own := hextra
  have hsame := hu.sameFor hholds hl
  have hstay (file : File) (hf : file ∈ before ++ after) (module : ClientModule)
      (hm : ClientModule.ofFile? registry options file = .ok module) :
      ClientModule.ofFile? larger options file = .ok module :=
    ClientModule.ofFile?_of_sameFor hsame (fun name hn => ⟨file, hf, hn⟩) hm
  obtain ⟨front, rest, hfront, hrest, rfl⟩ :=
    mapM_append_eq_ok_iff.mp (mapM_eq_ok_of_forall hstay hmods)
  have hok' : modulesOf options (before ++ extra :: after) = .ok (front ++ own :: rest) := by
    refine modulesOf_eq_ok_iff.mpr ⟨larger, hlarger, mapM_append_eq_ok_iff.mpr ?_⟩
    refine ⟨front, own :: rest, hfront, ?_, rfl⟩
    rw [List.mapM_cons, hown, hrest]
    rfl
  rw [generate, generate, hok, hok']
  refine congrArg (Except.mapError NoResult.fault) (outputsOf_congr options renderer probe ?_)
  intro name hn
  have hne : own.name ≠ name := by
    rw [ClientModule.name_of_ofFile? hown]
    rintro rfl
    exact hreq hn
  unfold named?
  rw [List.reverse_append, List.reverse_append, List.reverse_cons, List.append_assoc,
    List.find?_append, List.find?_append, List.find?_append]
  simp [hne]

/-- The notes on the items of a shop. -/
def Sample.note : File where
  name := "shop/note.proto"
  package := "shop"
  dependencies := ["shop/item.proto"]
  messages := [⟨"Note", [⟨"text", 1, none, .optional, .scalar .string, none, false⟩,
    ⟨"item", 2, none, .optional, .named ".shop.Item", none, false⟩], [], [], [], false⟩]
  enums := []
  services := []

/-- The sample does not refer to notes, so it is the same with them. -/
theorem generate_insert_note :
    Sample.note.Unrelated Sample.request.files ∧ Sample.note.name ∉ Sample.request.requested ∧
      generate {} Sample.labels Sample.bare
          ⟨[Sample.item, Sample.note, Sample.cart], Sample.request.requested⟩ =
        generate {} Sample.labels Sample.bare Sample.request := by
  have hu : Sample.note.Unrelated ([Sample.item] ++ [Sample.cart]) :=
    ⟨by decide +kernel, by decide +kernel, by decide +kernel⟩
  have hreq : Sample.note.name ∉ Sample.request.requested := by decide
  have hok : (modulesOf {} ([Sample.item] ++ [Sample.cart])).isOk = true := by decide +kernel
  have hextra : ((Registry.ofFiles ([Sample.item] ++ Sample.note :: [Sample.cart])).mapError .fault
      >>= (ClientModule.ofFile? · {} Sample.note)).isOk = true := by decide +kernel
  obtain ⟨modules, hok⟩ := exists_of_isOk hok
  obtain ⟨own, hextra⟩ := exists_of_isOk hextra
  exact ⟨hu, hreq, generate_insert_unrelated _ _ hok hu hreq hextra⟩

end ProtoClient
