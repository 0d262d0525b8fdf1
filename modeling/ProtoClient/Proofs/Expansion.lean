import Mathlib.Data.List.Perm.Subperm
import Mathlib.Logic.Relation
import ProtoClient.Proofs.Resolution

/-!
# Expanding map entries

Where a field type names a map entry, the types of its key and its value are resolved in its place,
and where one of these names a map entry again, so are those of that one. When no map entry leads
back to itself this comes to an end, no deeper than there are map entries: on the way down each of
them is met once at most. The names that are met can then be listed, and resolution fails at the
first of them that is not known.

## Main definitions

* `Registry.entry? registry name`: the map entry that is registered under a name
* `Registry.LeadsTo registry outer inner`: the map entry `outer` has a key or a value of type
  `inner`
* `Registry.Acyclic registry`: no map entry leads back to itself
* `Expands registry type names`: the names that a field type expands to
* `Registry.Knows registry name`: the name is well known or registered

## Main results

* `Registry.acyclic_of_isFlat`: map entries that lead to no map entries do not lead back to
  themselves
* `Expands.unique`: a field type expands to one list of names at most
* `exists_expands_resolveType`: a field type expands to names, and its resolution fails at the first
  of them that is not known
-/

namespace ProtoClient

variable {registry : Registry} {name source : String} {entry : MapEntry}

/-! ### Map entries that lead to each other -/

/-- **The map entry that is registered under a name**, which has no dot in front. A well-known name
has none, whatever is registered under it. -/
def Registry.entry? (registry : Registry) (name : String) : Option MapEntry :=
  match wellKnownTypes.lookup name, registry.get? name with
  | none, some ⟨_, _, .message entry, _⟩ => entry
  | _, _ => none

/-- **The map entry `outer` leads to `inner`**, which is the name of the type of its key or its
value. -/
def Registry.LeadsTo (registry : Registry) (outer inner : String) : Prop :=
  ∃ entry name, registry.entry? outer = some entry ∧
    (entry.key = .named name ∨ entry.value = .named name) ∧ withoutDot name = inner

/-- **No map entry leads back to itself.** -/
def Registry.Acyclic (registry : Registry) : Prop :=
  ∀ name, ¬Relation.TransGen registry.LeadsTo name name

/-- **A field type unwinds** when no map entry that it leads to leads back to itself. -/
def Registry.Unwinds (registry : Registry) (type : FieldType) : Prop :=
  ∀ name, type = .named name → ∀ inner,
    Relation.ReflTransGen registry.LeadsTo (withoutDot name) inner →
      ¬Relation.TransGen registry.LeadsTo inner inner

theorem Registry.Acyclic.unwinds (h : registry.Acyclic) (type : FieldType) :
    registry.Unwinds type :=
  fun _ _ inner _ => h inner

theorem Registry.entry?_eq_some_iff :
    registry.entry? name = some entry ↔
      wellKnownTypes.lookup name = none ∧ ∃ type, registry.get? name = some type ∧
        type.kind = .message (some entry) := by
  unfold entry?
  cases wellKnownTypes.lookup name with
  | some text => simp
  | none =>
    cases registry.get? name with
    | none => simp
    | some type =>
      obtain ⟨_, _, kind, _⟩ := type
      cases kind <;> simp

/-- What is registered as something else is no map entry. -/
theorem Registry.entry?_eq_none {other : Registered} (hf : registry.find? name = some other)
    (hk : ∀ entry, other.kind ≠ .message (some entry)) :
    registry.entry? (withoutDot name) = none := by
  rw [Option.eq_none_iff_forall_ne_some]
  intro entry hentry
  obtain ⟨-, _, hf', hk'⟩ := entry?_eq_some_iff.mp hentry
  cases hf.symm.trans hf'
  exact hk entry hk'

/-- Whether a field type names no map entry. -/
def Registry.isPlain (registry : Registry) : FieldType → Bool
  | .scalar _ => true
  | .named name => (registry.entry? (withoutDot name)).isNone

/-- Whether no map entry has a key or a value that is a map entry, as it is in compiled files. -/
def Registry.isFlat (registry : Registry) : Bool :=
  registry.values.all fun type =>
    match type.kind with
    | .message (some entry) => registry.isPlain entry.key && registry.isPlain entry.value
    | _ => true

/-- Where map entries lead to no map entries, none leads back to itself. -/
theorem Registry.acyclic_of_isFlat (h : registry.isFlat) : registry.Acyclic := by
  have hstep {outer inner : String} (hlead : registry.LeadsTo outer inner) :
      (registry.entry? outer).isSome ∧ registry.entry? inner = none := by
    obtain ⟨entry, name, hentry, hpart, rfl⟩ := hlead
    obtain ⟨-, type, hget, hkind⟩ := entry?_eq_some_iff.mp hentry
    have hflat := List.all_eq_true.mp h type
      (List.mem_map_of_mem (NameMap.get?_eq_some_iff.mp hget))
    simp only [hkind, Bool.and_eq_true] at hflat
    refine ⟨by simp [hentry], Option.isNone_iff_eq_none.mp ?_⟩
    rcases hpart with hkey | hvalue
    · rw [hkey] at hflat
      exact hflat.1
    · rw [hvalue] at hflat
      exact hflat.2
  intro name hcycle
  obtain ⟨_, hfirst, -⟩ := Relation.TransGen.head'_iff.mp hcycle
  obtain ⟨_, -, hlast⟩ := Relation.TransGen.tail'_iff.mp hcycle
  have hsome := (hstep hfirst).1
  rw [(hstep hlast).2] at hsome
  cases hsome

/-- Where the map entries of files lead to no map entries, none leads back to itself. -/
theorem Registry.acyclic_of_map_isFlat {files : List File}
    (h : (ofFiles files).map isFlat = .ok true) :
    ∀ registry, ofFiles files = .ok registry → registry.Acyclic := by
  intro registry hreg
  rw [hreg] at h
  exact acyclic_of_isFlat (Except.ok.inj h)

/-- There are no more different names of map entries than there are map entries. -/
theorem Registry.length_le_entryCount {names : List String} (hnodup : names.Nodup)
    (hentries : ∀ name ∈ names, (registry.entry? name).isSome) :
    names.length ≤ registry.entryCount := by
  let isEntry (type : Registered) : Bool := type.kind matches .message (some _)
  have hsub : names ⊆ (registry.entries.filter fun entry => isEntry entry.2).map Prod.fst := by
    intro name hname
    obtain ⟨entry, hentry⟩ := Option.isSome_iff_exists.mp (hentries name hname)
    obtain ⟨-, type, hget, hkind⟩ := entry?_eq_some_iff.mp hentry
    refine List.mem_map.mpr ⟨(name, type), List.mem_filter.mpr ⟨?_, ?_⟩, rfl⟩
    · exact NameMap.get?_eq_some_iff.mp hget
    · simp [isEntry, hkind]
  have hlength := (List.subperm_of_subset hnodup hsub).length_le
  rw [List.length_map, ← List.countP_eq_length_filter] at hlength
  rw [entryCount, NameMap.values, List.countP_map]
  exact hlength

/-! ### Names that are met -/

/-- **The names that a field type expands to**: the name that it mentions, and behind that of a map
entry those of its key and then those of its value. -/
inductive Expands (registry : Registry) : FieldType → List String → Prop
  | scalar (scalar : Scalar) : Expands registry (.scalar scalar) []
  | plain {name : String} (h : registry.entry? (withoutDot name) = none) :
    Expands registry (.named name) [name]
  | entry {name : String} {entry : MapEntry} {keyNames valueNames : List String}
    (h : registry.entry? (withoutDot name) = some entry)
    (hkey : Expands registry entry.key keyNames)
    (hvalue : Expands registry entry.value valueNames) :
    Expands registry (.named name) (name :: (keyNames ++ valueNames))

/-- A field type expands to one list of names at most. -/
theorem Expands.unique {type : FieldType} {names names' : List String}
    (h : Expands registry type names) (h' : Expands registry type names') : names = names' := by
  induction h generalizing names' with
  | scalar scalar =>
    cases h'
    rfl
  | plain hplain =>
    cases h' with
    | plain => rfl
    | entry hentry => simp [hplain] at hentry
  | entry hentry _ _ ihk ihv =>
    cases h' with
    | plain hplain => simp [hentry] at hplain
    | entry hentry' hkey hvalue =>
      cases hentry.symm.trans hentry'
      rw [ihk hkey, ihv hvalue]

/-- **A name is known** when it is well known or registered. -/
def Registry.Knows (registry : Registry) (name : String) : Prop :=
  (builtin? name).isSome ∨ (registry.find? name).isSome

instance (registry : Registry) (name : String) : Decidable (registry.Knows name) :=
  inferInstanceAs (Decidable (_ ∨ _))

/-- The fault of a name that is not known. -/
def Registry.missing? (registry : Registry) (source name : String) : Option Fault :=
  if registry.Knows name then none else some (.unknownType source (withoutDot name))

theorem Registry.missing?_eq_none_iff :
    registry.missing? source name = none ↔ registry.Knows name := by
  simp [missing?]

/-- A map entry is registered. -/
theorem Registry.knows_of_entry? (h : registry.entry? (withoutDot name) = some entry) :
    registry.Knows name := by
  obtain ⟨-, type, hget, -⟩ := entry?_eq_some_iff.mp h
  exact .inr (Option.isSome_iff_exists.mpr ⟨type, hget⟩)

/-! ### Where resolution fails -/

/-- That there is no result because of a fault tells the fault. -/
theorem NoResult.map_fault_eq_some_iff {fault : Fault} {fault? : Option Fault} :
    fault?.map NoResult.fault = some (.fault fault) ↔ fault? = some fault := by
  simp only [Option.map_eq_some_iff, NoResult.fault.injEq, exists_eq_right]

/-- Where there is no result because of a fault, there is an end. -/
theorem NoResult.map_fault_ne_endless (fault? : Option Fault) :
    fault?.map NoResult.fault ≠ some .endless := by
  cases fault? <;> simp

/-- A name that is no map entry is looked up and no more. -/
theorem failure?_resolveWithin_plain (h : registry.entry? (withoutDot name) = none) (depth : Nat) :
    failure? (resolveWithin registry source depth (.named name)) =
      (registry.missing? source name).map .fault := by
  cases hb : builtin? name with
  | some text => cases depth <;> simp [Registry.missing?, Registry.Knows, resolveWithin, hb]
  | none =>
    cases hf : registry.find? name with
    | none => cases depth <;> simp [Registry.missing?, Registry.Knows, resolveWithin, hb, hf]
    | some type =>
      have hknows : registry.Knows name := .inr (by simp [hf])
      rw [Registry.missing?_eq_none_iff.mpr hknows]
      rcases hk : type.kind with (_ | entry) | _
      · cases depth <;> simp [resolveWithin, hb, hf, hk]
      · have hentry := Registry.entry?_eq_some_iff.mpr ⟨hb, type, hf, hk⟩
        rw [h] at hentry
        cases hentry
      · cases depth <;> simp [resolveWithin, hb, hf, hk]

/-- With no depth left, a map entry is not followed. -/
theorem resolveWithin_entry_zero (h : registry.entry? (withoutDot name) = some entry) :
    resolveWithin registry source 0 (.named name) = .error .endless := by
  obtain ⟨hb, type, hf, hk⟩ := Registry.entry?_eq_some_iff.mp h
  have hb' : builtin? name = none := hb
  have hf' : registry.find? name = some type := hf
  simp only [resolveWithin, hb', hf', hk]

/-- A map entry is resolved by resolving its key and then its value, one level deeper. -/
theorem resolveWithin_entry (h : registry.entry? (withoutDot name) = some entry) (depth : Nat) :
    resolveWithin registry source (depth + 1) (.named name) = (do
      let key ← resolveWithin registry source depth entry.key
      let value ← resolveWithin registry source depth entry.value
      return .map key value) := by
  obtain ⟨hb, type, hf, hk⟩ := Registry.entry?_eq_some_iff.mp h
  have hb' : builtin? name = none := hb
  have hf' : registry.find? name = some type := hf
  simp only [resolveWithin, hb', hf', hk]

/-- A map entry is resolved as its key and its value are, one level deeper. -/
theorem failure?_resolveWithin_entry (h : registry.entry? (withoutDot name) = some entry)
    (depth : Nat) :
    failure? (resolveWithin registry source (depth + 1) (.named name)) =
      (failure? (resolveWithin registry source depth entry.key)).or
        (failure? (resolveWithin registry source depth entry.value)) := by
  rw [resolveWithin_entry h]
  exact failure?_bind fun key _ => failure?_bind_of_forall fun _ => rfl

/-- **The map entries that are met on the way down** to a field type that unwinds: each of them
leads to it, and no two are the same. -/
structure Met (registry : Registry) (visited : List String) (type : FieldType) : Prop where
  nodup : visited.Nodup
  isSome_entry? : ∀ name ∈ visited, (registry.entry? name).isSome
  leadsTo : ∀ outer ∈ visited, ∀ name, type = .named name →
    Relation.TransGen registry.LeadsTo outer (withoutDot name)
  unwinds : registry.Unwinds type

namespace Met

variable {visited : List String} {type : FieldType}

theorem nil (h : registry.Unwinds type) : Met registry [] type :=
  ⟨.nil, by simp, by simp, h⟩

/-- A map entry that is met has not been met before, and its key and its value are reached from it
and from all those that were. -/
theorem cons (h : Met registry visited (.named name))
    (hentry : registry.entry? (withoutDot name) = some entry)
    (hpart : type = entry.key ∨ type = entry.value) :
    Met registry (withoutDot name :: visited) type := by
  have hstep (inner : String) (ht : type = .named inner) :
      registry.LeadsTo (withoutDot name) (withoutDot inner) := by
    refine ⟨entry, inner, hentry, ?_, rfl⟩
    rw [← ht]
    exact hpart.imp Eq.symm Eq.symm
  refine ⟨List.nodup_cons.mpr ⟨?_, h.nodup⟩, ?_, ?_, ?_⟩
  · intro hmem
    exact h.unwinds name rfl _ .refl (h.leadsTo _ hmem name rfl)
  · intro other hother
    rcases List.mem_cons.mp hother with rfl | hother
    · rw [hentry]
      rfl
    · exact h.isSome_entry? other hother
  · intro outer houter inner ht
    rcases List.mem_cons.mp houter with rfl | houter
    · exact .single (hstep inner ht)
    · exact (h.leadsTo outer houter name rfl).tail (hstep inner ht)
  · intro inner ht other hother
    exact h.unwinds name rfl other (.head (hstep inner ht) hother)

/-- With no room left, no map entry can be met that has not been met before. -/
theorem length_lt_entryCount (h : Met registry visited (.named name))
    (hentry : registry.entry? (withoutDot name) = some entry) :
    visited.length < registry.entryCount := by
  have hmet : Met registry (withoutDot name :: visited) entry.key := h.cons hentry (.inl rfl)
  exact Registry.length_le_entryCount hmet.nodup hmet.isSome_entry?

/-- **A field type expands to names**, and resolution fails at the first of them that is not known,
when there is room for all map entries that have not been met. -/
theorem exists_expands (h : Met registry visited type) {depth : Nat}
    (hroom : registry.entryCount ≤ depth + visited.length) :
    ∃ names, Expands registry type names ∧ ∀ source,
      failure? (resolveWithin registry source depth type) =
        (names.findSome? (registry.missing? source)).map .fault := by
  -- the induction is on the room: a map entry takes one of it, and is met for good
  induction depth using Nat.strongRecOn generalizing visited type with
  | ind depth ih =>
    cases type with
    | scalar scalar => exact ⟨[], .scalar scalar, fun source => by simp [resolveWithin]⟩
    | named name =>
      cases hentry : registry.entry? (withoutDot name) with
      | none =>
        refine ⟨[name], .plain hentry, fun source => ?_⟩
        rw [failure?_resolveWithin_plain hentry, List.findSome?_singleton]
      | some entry =>
        have hless := h.length_lt_entryCount hentry
        obtain ⟨below, rfl⟩ := Nat.exists_eq_add_one.mpr (show 0 < depth by omega)
        have hroom' : registry.entryCount ≤ below + (withoutDot name :: visited).length := by
          rw [List.length_cons]
          omega
        obtain ⟨keyNames, hkey, hfkey⟩ := ih below (by omega) (h.cons hentry (.inl rfl)) hroom'
        obtain ⟨valueNames, hvalue, hfvalue⟩ :=
          ih below (by omega) (h.cons hentry (.inr rfl)) hroom'
        refine ⟨name :: (keyNames ++ valueNames), .entry hentry hkey hvalue, fun source => ?_⟩
        rw [failure?_resolveWithin_entry hentry, hfkey, hfvalue, List.findSome?_cons,
          Registry.missing?_eq_none_iff.mpr (Registry.knows_of_entry? hentry),
          List.findSome?_append, Option.map_or]

end Met

/-- **A field type that unwinds expands to names, and its resolution fails at the first of them that
is not known.** -/
theorem exists_expands_resolveType {type : FieldType} (h : registry.Unwinds type) :
    ∃ names, Expands registry type names ∧ ∀ source,
      failure? (resolveType registry source type) =
        (names.findSome? (registry.missing? source)).map .fault :=
  (Met.nil h).exists_expands (by simp)

end ProtoClient
