import Mathlib.Data.List.Induction
import Mathlib.Data.List.Nodup
import ProtoClient.Proofs.Outcome
import ProtoClient.Registry
import ProtoClient.Schema.Declaration

/-!
# What is registered

Files are registered one declaration after the other, and the first name that is taken ends the
run. A registry that comes out of this holds the declared types and nothing else, so nothing but
the set of declarations is left of the order in which they came.

## Main definitions

* `declaredTypes files`: the types that files declare, in the order of the walk
* `Registry.Holds registry types`: the registry holds exactly these types, all of another name

## Main results

* `Registry.addMessage_eq_foldlM`: a message is registered as the walk through it lists what is
  nested in it
* `Registry.ofFiles_eq_ok_iff`: files are registered as the registry that holds what they declare
* `Registry.exists_ofFiles_iff`: files can be registered when no name is declared twice
-/

namespace ProtoClient

/-- What a declaration in a file is registered as. -/
def Declaration.registered (file : String) (declaration : Declaration) : Registered :=
  match declaration.declared with
  | .message message => ⟨declaration.name, file, .message message.mapEntry, message.fields⟩
  | .enumeration _ => ⟨declaration.name, file, .enumeration, []⟩

@[simp] theorem Declaration.name_registered (file : String) (declaration : Declaration) :
    (declaration.registered file).name = declaration.name := by
  rw [Declaration.registered]
  split <;> rfl

@[simp] theorem Declaration.file_registered (file : String) (declaration : Declaration) :
    (declaration.registered file).file = file := by
  rw [Declaration.registered]
  split <;> rfl

/-- The types that a file declares, as they are registered. -/
def File.types (file : File) : List Registered :=
  file.declarations.map (·.registered file.name)

/-- **The types that files declare**, in the order of the walk. -/
def declaredTypes (files : List File) : List Registered :=
  files.flatMap File.types

theorem mem_declaredTypes {files : List File} {type : Registered} :
    type ∈ declaredTypes files ↔
      ∃ file ∈ files, ∃ declaration ∈ file.declarations,
        declaration.registered file.name = type := by
  simp [declaredTypes, File.types]

/-- A type that comes after others of different names has a name of its own. -/
theorem name_notMem_of_nodup {types more : List Registered} {type : Registered}
    (hn : ((types ++ type :: more).map Registered.name).Nodup) :
    type.name ∉ types.map Registered.name := by
  intro hm
  rw [List.map_append, List.nodup_append] at hn
  exact hn.2.2 _ hm _ (by simp) rfl

namespace Registry

/-- **The registry holds exactly these types**, each under its name, and no two have one name. -/
structure Holds (registry : Registry) (types : List Registered) : Prop where
  nodup : (types.map Registered.name).Nodup
  get?_iff : ∀ {name type}, registry.get? name = some type ↔ type ∈ types ∧ type.name = name

namespace Holds

variable {registry registry' : Registry} {types types' : List Registered}

theorem empty : Holds (.empty : Registry) [] := ⟨.nil, by simp⟩

/-- One registry at most holds given types. -/
theorem unique (h : registry.Holds types) (h' : registry'.Holds types) : registry = registry' :=
  NameMap.ext_get? fun name => Option.ext fun type => by rw [h.get?_iff, h'.get?_iff]

theorem get?_eq_none_iff (h : registry.Holds types) {name : String} :
    registry.get? name = none ↔ name ∉ types.map Registered.name := by
  rw [Option.eq_none_iff_forall_ne_some, List.mem_map]
  constructor
  · rintro hn ⟨type, ht, hname⟩
    exact hn type (h.get?_iff.mpr ⟨ht, hname⟩)
  · intro hn type ht
    exact hn ⟨type, h.get?_iff.mp ht⟩

/-- A type whose name is free is held after it has been inserted. -/
theorem insert (h : registry.Holds types) {type : Registered}
    (hfree : type.name ∉ types.map Registered.name) :
    Holds (NameMap.insert registry type.name type) (types ++ [type]) := by
  refine ⟨?_, fun {name other} => ?_⟩
  · rw [List.map_append, List.nodup_append]
    refine ⟨h.nodup, by simp, ?_⟩
    rintro a ha b hb rfl
    have hname : a = type.name := by simpa using hb
    exact hfree (hname ▸ ha)
  · rw [NameMap.get?_insert, List.mem_append, List.mem_singleton]
    by_cases hname : name = type.name
    · rw [if_pos hname, hname]
      constructor
      · rintro hsome
        cases hsome
        exact ⟨.inr rfl, rfl⟩
      · rintro ⟨hold | rfl, hn⟩
        · exact absurd (List.mem_map.mpr ⟨other, hold, hn⟩) hfree
        · rfl
    · rw [if_neg hname, h.get?_iff]
      refine ⟨fun ⟨hold, hn⟩ => ⟨.inl hold, hn⟩, ?_⟩
      rintro ⟨hold | rfl, hn⟩
      · exact ⟨hold, hn⟩
      · exact absurd hn.symm hname

theorem perm (h : registry.Holds types) (hp : types.Perm types') : registry.Holds types' :=
  ⟨(hp.map _).nodup h.nodup, fun {name type} => by rw [h.get?_iff, hp.mem_iff]⟩

end Holds

/-- The values of a registry are the types that it holds. -/
theorem Holds.values_perm {registry : Registry} {types : List Registered}
    (h : registry.Holds types) : registry.values.Perm types := by
  have hname {entry : String × Registered} (he : entry ∈ registry.entries) :
      entry.2 ∈ types ∧ entry.2.name = entry.1 :=
    h.get?_iff.mp (NameMap.get?_eq_some_iff.mpr he)
  have hvalues : registry.values.Nodup := by
    apply List.Nodup.of_map Registered.name
    have hkeys : registry.values.map Registered.name = registry.entries.map Prod.fst := by
      rw [NameMap.values, List.map_map]
      exact List.map_congr_left fun entry he => (hname he).2
    rw [hkeys]
    exact List.pairwise_map.mpr (registry.increasing.imp fun hlt => String.ne_of_lt hlt)
  rw [List.perm_ext_iff_of_nodup hvalues (h.nodup.of_map _)]
  intro type
  rw [NameMap.values, List.mem_map]
  constructor
  · rintro ⟨entry, he, rfl⟩
    exact (hname he).1
  · intro ht
    exact ⟨(type.name, type), NameMap.get?_eq_some_iff.mp (h.get?_iff.mpr ⟨ht, rfl⟩), rfl⟩

/-! ### Registration follows the walk -/

section Walk

variable {file scope : String} {inlined : Bool}

/-- A declaration entered as what it is registered as. -/
def register (file : String) (registry : Registry) (declaration : Declaration) :
    Except Fault Registry :=
  registry.enter (declaration.registered file)

/-- Enums are registered as the walk through them is. -/
theorem foldlM_addEnum (registry : Registry) (enums : List EnumType) :
    enums.foldlM (addEnum file scope) registry =
      (EnumType.declarations scope inlined enums).foldlM (register file) registry := by
  rw [EnumType.declarations, List.foldlM_map]
  rfl

/-- Messages are registered as the walk through them is, when each of them is. -/
theorem addMessages_eq_foldlM {messages : List Message}
    (h : ∀ message ∈ messages, ∀ registry, addMessage file scope registry message =
      (message.declarations scope inlined).foldlM (register file) registry)
    (registry : Registry) :
    addMessages file scope registry messages =
      (Message.listDeclarations scope inlined messages).foldlM (register file) registry := by
  induction messages generalizing registry with
  | nil => rfl
  | cons message rest ih =>
    obtain ⟨hfirst, hrest⟩ := List.forall_mem_cons.mp h
    rw [addMessages, hfirst, Message.listDeclarations, List.foldlM_append]
    exact congrArg _ (funext (ih hrest))

/-- **A message is registered with what is nested in it** as the walk through it is. -/
theorem addMessage_eq_foldlM (message : Message) (registry : Registry) :
    addMessage file scope registry message =
      (message.declarations scope inlined).foldlM (register file) registry := by
  -- the induction is on the messages nested in it, which stand in the scope of its name
  induction message using Message.induction generalizing scope inlined registry with
  | step message ih =>
    obtain ⟨name, fields, nested, enums, choices, isEntry⟩ := message
    rw [addMessage, Message.declarations, List.foldlM_cons]
    refine congrArg _ (funext fun registry => ?_)
    rw [List.foldlM_append, addMessages_eq_foldlM fun inner hinner => ih inner hinner]
    exact congrArg _ (funext fun registry => foldlM_addEnum registry enums)

/-- A file is registered by entering the types that it declares, one after the other. -/
theorem addFile_eq_foldlM (registry : Registry) (file : File) :
    addFile registry file = file.types.foldlM enter registry := by
  rw [addFile, addMessages_eq_foldlM fun message _ => addMessage_eq_foldlM message, File.types,
    List.foldlM_map, File.declarations, List.foldlM_append]
  exact congrArg _ (funext fun registry => foldlM_addEnum registry file.enums)

end Walk

/-- Files are registered by entering the types that they declare, one after the other. -/
theorem ofFiles_eq_foldlM (files : List File) :
    ofFiles files = (declaredTypes files).foldlM enter .empty := by
  rw [ofFiles]
  generalize (NameMap.empty : Registry) = registry
  induction files generalizing registry with
  | nil => rfl
  | cons file files ih =>
    rw [List.foldlM_cons, addFile_eq_foldlM, declaredTypes, List.flatMap_cons, List.foldlM_append]
    exact congrArg _ (funext ih)

/-- What entering one type does to the types that are held. -/
theorem Holds.enter_eq_ok_iff {registry registry' : Registry} {types : List Registered}
    {type : Registered} (h : registry.Holds types) :
    registry.enter type = .ok registry' ↔ registry'.Holds (types ++ [type]) := by
  rw [enter]
  constructor
  · intro hok
    split at hok
    · cases hok
    · next hfree =>
      cases hok
      exact h.insert (h.get?_eq_none_iff.mp hfree)
  · intro h'
    have hfree := name_notMem_of_nodup h'.nodup
    rw [h.get?_eq_none_iff.mpr hfree]
    exact congrArg _ ((h.insert hfree).unique h')

/-- What entering types one after the other does to the types that are held. -/
theorem Holds.foldlM_enter_eq_ok_iff {registry registry' : Registry} {types more : List Registered}
    (h : registry.Holds types) :
    more.foldlM enter registry = .ok registry' ↔ registry'.Holds (types ++ more) := by
  induction more generalizing registry types with
  | nil =>
    rw [List.append_nil]
    constructor
    · intro hok
      cases hok
      exact h
    · intro h'
      exact congrArg Except.ok (h.unique h')
  | cons type more ih =>
    rw [List.foldlM_cons, bind_eq_ok_iff]
    constructor
    · rintro ⟨next, hnext, hok⟩
      simpa using (ih (h.enter_eq_ok_iff.mp hnext)).mp hok
    · intro h'
      have hnext := h.insert (name_notMem_of_nodup h'.nodup)
      exact ⟨_, h.enter_eq_ok_iff.mpr hnext, (ih hnext).mpr (by simpa using h')⟩

/-- **Files are registered as the registry that holds what they declare.** -/
theorem ofFiles_eq_ok_iff {files : List File} {registry : Registry} :
    ofFiles files = .ok registry ↔ registry.Holds (declaredTypes files) := by
  rw [ofFiles_eq_foldlM, Holds.empty.foldlM_enter_eq_ok_iff, List.nil_append]

/-- Types of different names are held by some registry. -/
theorem exists_holds {types : List Registered} (hn : (types.map Registered.name).Nodup) :
    ∃ registry : Registry, registry.Holds types := by
  induction types using List.reverseRecOn with
  | nil => exact ⟨_, .empty⟩
  | append_singleton types type ih =>
    obtain ⟨registry, h⟩ := ih (hn.sublist ((List.sublist_append_left ..).map _))
    exact ⟨_, h.insert (name_notMem_of_nodup hn)⟩

/-- Files can be registered when no name is declared twice. -/
theorem exists_ofFiles_iff {files : List File} :
    (∃ registry, ofFiles files = .ok registry) ↔
      ((declaredTypes files).map Registered.name).Nodup := by
  constructor
  · rintro ⟨registry, hok⟩
    exact (ofFiles_eq_ok_iff.mp hok).nodup
  · intro hn
    obtain ⟨registry, h⟩ := exists_holds hn
    exact ⟨registry, ofFiles_eq_ok_iff.mpr h⟩

end Registry

end ProtoClient
