import ProtoClient.ClientModule.Resolution
import ProtoClient.Proofs.Registration
import ProtoClient.Proofs.Text.Affix

/-!
# The registry as an index of declarations

Registration goes through the declarations of all files, one after the other. When their names
differ, the registry holds one type for each of them and nothing else, in the order of the names,
and every type is found under its name. Otherwise it stops at the first declaration whose name an
earlier one has.

## Main definitions

* `declarationsOf files`: the declarations of files, in the order of the walk
* `Registered.StandsFor type file declaration`: what is registered for a declaration
* `Registry.Indexes registry declarations`: the registry is an index of the declarations

## Main results

* `Registry.Holds.exists_of_foldlM_enter_eq_error`: entering types fails at the first name that is
  taken
* `Registry.ofFiles_indexes`: when files are registered, as what, and where registration stops
-/

namespace ProtoClient

open Text

/-- **The declarations of files**, in the order of the walk, each with the name of its file. -/
def declarationsOf (files : List File) : List (String × Declaration) :=
  files.flatMap fun file => file.declarations.map fun declaration => (file.name, declaration)

/-- **What is registered for a declaration.** The map entry of a message is known by the first of
its fields that are numbered one and two. -/
structure Registered.StandsFor (type : Registered) (file : String) (declaration : Declaration) :
    Prop where
  name_eq : type.name = declaration.name
  reference_eq : type.reference = ⟨identifier declaration.name, file⟩
  message : ∀ message, declaration.declared = .message message →
    type.fields = message.fields ∧ ∃ entry, type.kind = .message entry ∧
      ∀ key value, entry = some ⟨key, value⟩ ↔ message.isEntry = true ∧
        (message.fields.find? (·.number = 1)).map Field.type = some key ∧
        (message.fields.find? (·.number = 2)).map Field.type = some value
  enumeration : ∀ enum, declaration.declared = .enumeration enum →
    type.fields = [] ∧ type.kind = .enumeration

/-- **The registry is an index of the declarations**: it holds one type for each of them, in the
order of their names, and finds it under its name, while it finds nothing under other names. -/
structure Registry.Indexes (registry : Registry) (declarations : List (String × Declaration)) :
    Prop where
  values_perm : ∃ types, registry.values.Perm types ∧
    List.Forall₂ (fun (file, declaration) type => type.StandsFor file declaration)
      declarations types
  increasing : registry.values.Pairwise fun type type' => type.name < type'.name
  resolve_dot : ∀ file declaration, (file, declaration) ∈ declarations →
    registry.resolve ("." ++ declaration.name) = .ok ⟨identifier declaration.name, file⟩
  resolve_name : ∀ file declaration, (file, declaration) ∈ declarations →
    hasFront "." declaration.name = false →
    registry.resolve declaration.name = .ok ⟨identifier declaration.name, file⟩
  resolve_other : ∀ name, (∀ file declaration, (file, declaration) ∈ declarations →
    declaration.name ≠ withoutDot name) → registry.resolve name = .error (withoutDot name)

theorem declaredTypes_eq_map (files : List File) :
    declaredTypes files =
      (declarationsOf files).map fun (file, declaration) => declaration.registered file := by
  rw [declaredTypes, declarationsOf, List.map_flatMap]
  simp only [List.map_map]
  rfl

theorem names_declaredTypes (files : List File) :
    (declaredTypes files).map Registered.name =
      (declarationsOf files).map fun (_, declaration) => declaration.name := by
  rw [declaredTypes_eq_map, List.map_map]
  exact List.map_congr_left fun _ _ => Declaration.name_registered _ _

/-- A name that does not begin with a dot is itself without one. -/
theorem withoutDot_eq_self {name : String} (h : hasFront "." name = false) :
    withoutDot name = name := by
  rw [withoutDot]
  split
  · next rest hname => simp [hasFront, hname] at h
  · rfl

/-- The key and value types of an entry message, by its fields. -/
theorem Message.mapEntry_eq_some_iff {message : Message} {key value : FieldType} :
    message.mapEntry = some ⟨key, value⟩ ↔ message.isEntry = true ∧
      (message.fields.find? (·.number = 1)).map Field.type = some key ∧
      (message.fields.find? (·.number = 2)).map Field.type = some value := by
  unfold Message.mapEntry
  by_cases hentry : message.isEntry = true
  · cases hfirst : message.fields.find? (·.number = 1) with
    | none => simp [hentry]
    | some first =>
      cases hsecond : message.fields.find? (·.number = 2) with
      | none => simp [hentry]
      | some second => simp [hentry]
  · simp [hentry]

theorem Declaration.standsFor_registered (file : String) (declaration : Declaration) :
    (declaration.registered file).StandsFor file declaration where
  name_eq := name_registered file declaration
  reference_eq := by
    rw [Registered.reference, name_registered, file_registered]
  message := by
    intro message hm
    rw [registered, hm]
    exact ⟨rfl, _, rfl, fun _ _ => Message.mapEntry_eq_some_iff⟩
  enumeration := by
    intro enum he
    rw [registered, he]
    exact ⟨rfl, rfl⟩

namespace Registry

variable {registry : Registry} {files : List File}

/-- **Entering types fails at the first name that is taken**, by a type that is held or by one that
is entered before. -/
theorem Holds.exists_of_foldlM_enter_eq_error {types more : List Registered} {fault : Fault}
    (h : registry.Holds types) (hfail : more.foldlM enter registry = .error fault) :
    ∃ front type back earlier, more = front ++ type :: back ∧
      ((types ++ front).map Registered.name).Nodup ∧ earlier ∈ types ++ front ∧
      earlier.name = type.name ∧ fault = .duplicateType type.name earlier.file type.file := by
  induction more generalizing registry types with
  | nil => cases hfail
  | cons type more ih =>
    rw [List.foldlM_cons] at hfail
    cases htaken : registry.get? type.name with
    | some earlier =>
      obtain ⟨hearlier, hname⟩ := h.get?_iff.mp htaken
      have hfault : Except.error (.duplicateType type.name earlier.file type.file) =
          (Except.error fault : Except Fault Registry) := by
        rw [enter, htaken] at hfail
        exact hfail
      cases hfault
      exact ⟨[], type, more, earlier, rfl, by simpa using h.nodup, by simpa using hearlier, hname,
        rfl⟩
    | none =>
      have hnext := h.insert (h.get?_eq_none_iff.mp htaken)
      rw [enter, htaken] at hfail
      obtain ⟨front, other, back, earlier, rfl, hnodup, hearlier, hname, hfault⟩ := ih hnext hfail
      rw [List.append_assoc] at hnodup hearlier
      exact ⟨type :: front, other, back, earlier, rfl, hnodup, hearlier, hname, hfault⟩

/-- The values of a registry stand in the order of their names. -/
theorem Holds.pairwise_values {types : List Registered} (h : registry.Holds types) :
    registry.values.Pairwise fun type type' => type.name < type'.name := by
  rw [NameMap.values, List.pairwise_map]
  refine registry.increasing.imp_of_mem fun {entry entry'} hentry hentry' hlt => ?_
  rw [(h.get?_iff.mp (NameMap.get?_eq_some_iff.mpr hentry)).2,
    (h.get?_iff.mp (NameMap.get?_eq_some_iff.mpr hentry')).2]
  exact hlt

theorem resolve_eq_ok {name : String} {type : Registered} (h : registry.find? name = some type) :
    registry.resolve name = .ok type.reference := by
  rw [resolve, h]

/-- **A registry that holds what files declare is an index of their declarations.** -/
theorem Holds.indexes (h : registry.Holds (declaredTypes files)) :
    registry.Indexes (declarationsOf files) := by
  have hget {file : String} {declaration : Declaration}
      (hd : (file, declaration) ∈ declarationsOf files) :
      registry.get? declaration.name = some (declaration.registered file) := by
    refine h.get?_iff.mpr ⟨?_, Declaration.name_registered file declaration⟩
    rw [declaredTypes_eq_map]
    exact List.mem_map_of_mem hd
  refine ⟨⟨declaredTypes files, h.values_perm, ?_⟩, h.pairwise_values, ?_, ?_, ?_⟩
  · rw [declaredTypes_eq_map, List.forall₂_map_right_iff, List.forall₂_same]
    exact fun declared _ => Declaration.standsFor_registered declared.1 declared.2
  · intro file declaration hd
    rw [resolve_eq_ok ((find?_dot registry declaration.name).trans (hget hd))]
    exact congrArg _ (Declaration.standsFor_registered file declaration).reference_eq
  · intro file declaration hd hdot
    have hfind : registry.find? declaration.name = some (declaration.registered file) := by
      rw [find?, withoutDot_eq_self hdot]
      exact hget hd
    rw [resolve_eq_ok hfind]
    exact congrArg _ (Declaration.standsFor_registered file declaration).reference_eq
  · intro name hname
    have hnone : registry.find? name = none := by
      rw [find?, h.get?_eq_none_iff, names_declaredTypes, List.mem_map]
      rintro ⟨⟨file, declaration⟩, hd, heq⟩
      exact hname file declaration hd heq
    rw [resolve, hnone]

/-- **Files are registered when the declared names differ**, and the registry is then an index of
the declarations. Otherwise registration stops at the first declaration whose name an earlier one
has, and names the files of both. -/
theorem ofFiles_indexes (files : List File) :
    ((∃ registry, ofFiles files = .ok registry) ↔
      ((declarationsOf files).map fun (_, declaration) => declaration.name).Nodup) ∧
    (∀ registry, ofFiles files = .ok registry → registry.Indexes (declarationsOf files)) ∧
    ∀ fault, ofFiles files = .error fault →
      ∃ front file declaration back earlierFile earlier,
        declarationsOf files = front ++ (file, declaration) :: back ∧
        (front.map fun (_, declaration) => declaration.name).Nodup ∧
        (earlierFile, earlier) ∈ front ∧ earlier.name = declaration.name ∧
        fault = .duplicateType declaration.name earlierFile file := by
  refine ⟨?_, fun registry hok => (ofFiles_eq_ok_iff.mp hok).indexes, fun fault hfail => ?_⟩
  · rw [exists_ofFiles_iff, names_declaredTypes]
  · rw [ofFiles_eq_foldlM] at hfail
    obtain ⟨front, type, back, earlier, htypes, hnodup, hearlier, hname, rfl⟩ :=
      Holds.empty.exists_of_foldlM_enter_eq_error hfail
    rw [declaredTypes_eq_map] at htypes
    obtain ⟨front, rest, hdeclarations, rfl, hrest⟩ := List.map_eq_append_iff.mp htypes
    obtain ⟨⟨file, declaration⟩, back, rfl, rfl, rfl⟩ := List.map_eq_cons_iff.mp hrest
    rw [List.nil_append] at hnodup hearlier
    obtain ⟨⟨earlierFile, earlier⟩, hmem, rfl⟩ := List.mem_map.mp hearlier
    simp only [Declaration.name_registered, Declaration.file_registered] at hname ⊢
    refine ⟨front, file, declaration, back, earlierFile, earlier, hdeclarations, ?_, hmem, hname,
      rfl⟩
    rw [List.map_map] at hnodup
    simpa [Function.comp_def] using hnodup

/-- A message nested in `Cart` and one of the package `Cart` meet. -/
example :
    ofFiles [
        ⟨"nested.proto", "", [],
          [⟨"Cart", [], [⟨"Item", [], [], [], [], false⟩], [], [], false⟩], [], []⟩,
        ⟨"package.proto", "Cart", [], [⟨"Item", [], [], [], [], false⟩], [], []⟩] matches
      .error (.duplicateType "Cart.Item" "nested.proto" "package.proto") := by
  decide +kernel

end Registry

end ProtoClient
