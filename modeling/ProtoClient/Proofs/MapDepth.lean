import ProtoClient.Proofs.Expansion

/-!
# Resolution comes to an end

A map entry is resolved by resolving the types of its key and of its value, which may be map entries
again. What this comes to can be said without a bound on how often it happens: `ComesTo` follows the
types through the registry, counts how many of them are resolved inside each other, and has a
derivation only where this ends. A type from which no map entry leads back to itself has one, and
there are never more types inside each other than there are map entries and one. The bound that
resolution is run with is therefore not felt: it yields what the types come to without it.

## Main definitions

* `ComesTo registry source type levels outcome`: the field type comes to the outcome, with as many
  levels
* `Registry.TellsApart registry`: no two registered types have one reference
* `Registry.ResolvesToEnd registry source name`: what resolution does with the type of a name

## Main results

* `ComesTo.resolveWithin_eq`: with room for its levels, resolution yields what a type comes to
* `Met.exists_comesTo`: a type that unwinds comes to an outcome, with a level for each map entry at
  most and one more
* `Resolves.unwinds`: where a type stands for something, no map entry leads back to itself
* `Registry.Unwinds.resolvesToEnd`: resolution of a type that unwinds ends, with the map that is
  meant or the first name that is not known
-/

namespace ProtoClient

variable {registry : Registry} {source name : String} {type : FieldType} {entry : MapEntry}
  {levels : Nat} {outcome : Except Fault TypeExpr}

/-! ### What a type comes to -/

/-- **What a field type of a file comes to**, and with how many levels: a type is one level, and a
map entry is one more than the deeper of its key and its value. Where the key has a fault, the value
is not looked at. -/
inductive ComesTo (registry : Registry) (source : String) :
    FieldType → Nat → Except Fault TypeExpr → Prop
  | scalar (scalar : Scalar) :
    ComesTo registry source (.scalar scalar) 1 (.ok (.builtin scalar.builtin))
  | wellKnown {name text : String} (hb : builtin? name = some text) :
    ComesTo registry source (.named name) 1 (.ok (.builtin text))
  | unknown {name : String} (hb : builtin? name = none) (hf : registry.find? name = none) :
    ComesTo registry source (.named name) 1 (.error (.unknownType source (withoutDot name)))
  | enumeration {name : String} {type : Registered} (hb : builtin? name = none)
    (hf : registry.find? name = some type) (hk : type.kind = .enumeration) :
    ComesTo registry source (.named name) 1 (.ok (.enumeration type.reference))
  | object {name : String} {type : Registered} (hb : builtin? name = none)
    (hf : registry.find? name = some type) (hk : type.kind = .message none) :
    ComesTo registry source (.named name) 1 (.ok (.object type.reference))
  | keyFault {name : String} {entry : MapEntry} {levels : Nat} {fault : Fault}
    (h : registry.entry? (withoutDot name) = some entry)
    (hkey : ComesTo registry source entry.key levels (.error fault)) :
    ComesTo registry source (.named name) (levels + 1) (.error fault)
  | valueFault {name : String} {entry : MapEntry} {keyLevels valueLevels : Nat} {key : TypeExpr}
    {fault : Fault} (h : registry.entry? (withoutDot name) = some entry)
    (hkey : ComesTo registry source entry.key keyLevels (.ok key))
    (hvalue : ComesTo registry source entry.value valueLevels (.error fault)) :
    ComesTo registry source (.named name) (max keyLevels valueLevels + 1) (.error fault)
  | map {name : String} {entry : MapEntry} {keyLevels valueLevels : Nat} {key value : TypeExpr}
    (h : registry.entry? (withoutDot name) = some entry)
    (hkey : ComesTo registry source entry.key keyLevels (.ok key))
    (hvalue : ComesTo registry source entry.value valueLevels (.ok value)) :
    ComesTo registry source (.named name) (max keyLevels valueLevels + 1) (.ok (.map key value))

namespace ComesTo

theorem levels_pos (h : ComesTo registry source type levels outcome) : 0 < levels := by
  cases h <;> omega

/-- **With room for its levels, resolution yields what a type comes to.** -/
theorem resolveWithin_eq (h : ComesTo registry source type levels outcome) {depth : Nat}
    (hroom : levels ≤ depth + 1) :
    resolveWithin registry source depth type = outcome.mapError .fault := by
  induction h generalizing depth with
  | scalar scalar =>
    rw [resolveWithin]
    rfl
  | wellKnown hb => cases depth <;> simp [resolveWithin, hb, Except.mapError]
  | unknown hb hf => cases depth <;> simp [resolveWithin, hb, hf, Except.mapError]
  | enumeration hb hf hk => cases depth <;> simp [resolveWithin, hb, hf, hk, Except.mapError]
  | object hb hf hk => cases depth <;> simp [resolveWithin, hb, hf, hk, Except.mapError]
  | keyFault h hkey ih =>
    have hpos := hkey.levels_pos
    obtain ⟨below, rfl⟩ := Nat.exists_eq_add_one.mpr (show 0 < depth by omega)
    rw [resolveWithin_entry h, ih (by omega)]
    rfl
  | valueFault h hkey hvalue ihk ihv =>
    have hpos := hkey.levels_pos
    obtain ⟨below, rfl⟩ := Nat.exists_eq_add_one.mpr (show 0 < depth by omega)
    rw [resolveWithin_entry h, ihk (by omega), ihv (by omega)]
    rfl
  | map h hkey hvalue ihk ihv =>
    have hpos := hkey.levels_pos
    obtain ⟨below, rfl⟩ := Nat.exists_eq_add_one.mpr (show 0 < depth by omega)
    rw [resolveWithin_entry h, ihk (by omega), ihv (by omega)]
    rfl

end ComesTo

/-- A name that is no map entry comes to an outcome at once. -/
theorem exists_comesTo_plain (h : registry.entry? (withoutDot name) = none) (source : String) :
    ∃ outcome, ComesTo registry source (.named name) 1 outcome := by
  cases hb : builtin? name with
  | some text => exact ⟨_, .wellKnown hb⟩
  | none =>
    cases hf : registry.find? name with
    | none => exact ⟨_, .unknown hb hf⟩
    | some type =>
      rcases hk : type.kind with (_ | entry) | _
      · exact ⟨_, .object hb hf hk⟩
      · have hentry := Registry.entry?_eq_some_iff.mpr ⟨hb, type, hf, hk⟩
        rw [h] at hentry
        cases hentry
      · exact ⟨_, .enumeration hb hf hk⟩

/-- **A type that unwinds comes to an outcome**, with a level for each map entry at most that has
not been met, and one more. -/
theorem Met.exists_comesTo {visited : List String} (h : Met registry visited type)
    (source : String) :
    ∃ levels outcome, ComesTo registry source type levels outcome ∧
      levels + visited.length ≤ registry.entryCount + 1 := by
  have hvisited : visited.length ≤ registry.entryCount :=
    Registry.length_le_entryCount h.nodup h.isSome_entry?
  obtain ⟨room, hroom⟩ := Nat.le.dest hvisited
  -- the induction is on the map entries that are left: a map entry is met for good
  induction room using Nat.strongRecOn generalizing visited type with
  | ind room ih =>
    cases type with
    | scalar scalar => exact ⟨1, _, .scalar scalar, by omega⟩
    | named name =>
      cases hentry : registry.entry? (withoutDot name) with
      | none =>
        obtain ⟨outcome, houtcome⟩ := exists_comesTo_plain hentry source
        exact ⟨1, outcome, houtcome, by omega⟩
      | some entry =>
        have hless := h.length_lt_entryCount hentry
        have hpart {part : FieldType} (hp : part = entry.key ∨ part = entry.value) :
            ∃ levels outcome, ComesTo registry source part levels outcome ∧
              levels + visited.length ≤ registry.entryCount := by
          obtain ⟨levels, outcome, houtcome, hlevels⟩ := ih (room - 1) (by omega)
            (h.cons hentry hp) (by rw [List.length_cons]; omega)
            (by rw [List.length_cons]; omega)
          rw [List.length_cons] at hlevels
          exact ⟨levels, outcome, houtcome, by omega⟩
        obtain ⟨keyLevels, key, hkey, hkeyLevels⟩ := hpart (.inl rfl)
        obtain ⟨valueLevels, value, hvalue, hvalueLevels⟩ := hpart (.inr rfl)
        cases key with
        | error fault => exact ⟨_, _, .keyFault hentry hkey, by omega⟩
        | ok key =>
          cases value with
          | error fault => exact ⟨_, _, .valueFault hentry hkey hvalue, by omega⟩
          | ok value => exact ⟨_, _, .map hentry hkey hvalue, by omega⟩

/-- A type that unwinds comes to what resolution yields. -/
theorem Registry.Unwinds.exists_comesTo (h : registry.Unwinds type) (source : String) :
    ∃ levels ≤ registry.entryCount + 1, ∃ outcome,
      ComesTo registry source type levels outcome ∧
        resolveType registry source type = outcome.mapError .fault := by
  obtain ⟨levels, outcome, houtcome, hlevels⟩ := (Met.nil h).exists_comesTo source
  rw [List.length_nil, Nat.add_zero] at hlevels
  exact ⟨levels, hlevels, outcome, houtcome, houtcome.resolveWithin_eq hlevels⟩

/-! ### Maps -/

/-- A map entry that comes to a type comes to the map of what its key and its value come to. -/
theorem ComesTo.exists_map {expr : TypeExpr}
    (h : ComesTo registry source (.named name) levels (.ok expr))
    (hentry : registry.entry? (withoutDot name) = some entry) :
    ∃ keyLevels valueLevels key value, keyLevels < levels ∧ valueLevels < levels ∧
      ComesTo registry source entry.key keyLevels (.ok key) ∧
      ComesTo registry source entry.value valueLevels (.ok value) ∧ expr = .map key value := by
  obtain ⟨hb, type, hf, hk⟩ := Registry.entry?_eq_some_iff.mp hentry
  cases h with
  | wellKnown hb' => cases hb.symm.trans hb'
  | enumeration hb' hf' hk' =>
    cases hf.symm.trans hf'
    cases hk.symm.trans hk'
  | object hb' hf' hk' =>
    cases hf.symm.trans hf'
    cases hk.symm.trans hk'
  | map hentry' hkey hvalue =>
    cases hentry.symm.trans hentry'
    exact ⟨_, _, _, _, by omega, by omega, hkey, hvalue, rfl⟩

/-- A type that comes to a map is that of a map entry. -/
theorem ComesTo.exists_entry {expr : TypeExpr}
    (h : ComesTo registry source (.named name) levels (.ok expr)) (hmap : expr.isMap = true) :
    ∃ entry, registry.entry? (withoutDot name) = some entry := by
  cases h with
  | wellKnown hb => cases hmap
  | enumeration hb hf hk => cases hmap
  | object hb hf hk => cases hmap
  | map hentry hkey hvalue => exact ⟨_, hentry⟩

/-! ### What stands for something unwinds -/

/-- A name that is no map entry leads nowhere. -/
theorem Registry.unwinds_plain (h : registry.entry? (withoutDot name) = none) :
    registry.Unwinds (.named name) := by
  have hstart {inner : String} : ¬registry.LeadsTo (withoutDot name) inner := by
    rintro ⟨entry, part, hentry, -⟩
    cases h.symm.trans hentry
  rintro _ ⟨⟩ inner hinner hcycle
  rcases Relation.ReflTransGen.cases_head hinner with rfl | ⟨_, hstep, -⟩
  · obtain ⟨_, hstep, -⟩ := Relation.TransGen.head'_iff.mp hcycle
    exact hstart hstep
  · exact hstart hstep

/-- A map entry unwinds when its key and its value do. -/
theorem Registry.unwinds_entry (h : registry.entry? (withoutDot name) = some entry)
    (hkey : registry.Unwinds entry.key) (hvalue : registry.Unwinds entry.value) :
    registry.Unwinds (.named name) := by
  have hbehind {next inner : String} (hstep : registry.LeadsTo (withoutDot name) next)
      (hinner : Relation.ReflTransGen registry.LeadsTo next inner) :
      ¬Relation.TransGen registry.LeadsTo inner inner := by
    obtain ⟨_, part, hentry, hpart, rfl⟩ := hstep
    cases h.symm.trans hentry
    rcases hpart with hpart | hpart
    · exact hkey part hpart inner hinner
    · exact hvalue part hpart inner hinner
  rintro _ ⟨⟩ inner hinner hcycle
  rcases Relation.ReflTransGen.cases_head hinner with rfl | ⟨next, hstep, hnext⟩
  · obtain ⟨next, hstep, hback⟩ := Relation.TransGen.head'_iff.mp hcycle
    exact hbehind hstep hback hcycle
  · exact hbehind hstep hnext hcycle

/-- **Where a type stands for something, no map entry leads back to itself.** -/
theorem Resolves.unwinds {expr : TypeExpr} (h : Resolves registry type expr) :
    registry.Unwinds type := by
  induction h with
  | scalar scalar => exact fun _ h => nomatch h
  | wellKnown hb =>
    refine Registry.unwinds_plain (Option.eq_none_iff_forall_ne_some.mpr fun entry hentry => ?_)
    cases hb.symm.trans (Registry.entry?_eq_some_iff.mp hentry).1
  | enumeration hb hf hk =>
    exact Registry.unwinds_plain (Registry.entry?_eq_none hf fun _ h => nomatch hk.symm.trans h)
  | object hb hf hk =>
    exact Registry.unwinds_plain (Registry.entry?_eq_none hf fun _ h => nomatch hk.symm.trans h)
  | map hb hf hk hkey hvalue ihk ihv =>
    exact Registry.unwinds_entry (Registry.entry?_eq_some_iff.mpr ⟨hb, _, hf, hk⟩) ihk ihv

/-! ### What resolution does -/

/-- **The references tell the registered types apart**: no two have one. -/
def Registry.TellsApart (registry : Registry) : Prop :=
  ∀ name other type type', registry.get? name = some type → registry.get? other = some type' →
    type.reference = type'.reference → name = other

/-- **Resolution of a name ends**, with the map that is meant where it is that of a map entry, and
with the first name that is not known where there is one. -/
structure Registry.ResolvesToEnd (registry : Registry) (source name : String) : Prop where
  /-- What the name comes to, one level deeper at most than there are map entries, is the result. -/
  ends : ∃ levels ≤ registry.entryCount + 1, ∃ outcome,
    ComesTo registry source (.named name) levels outcome ∧
      resolveType registry source (.named name) = outcome.mapError .fault
  /-- The result is a map for map entries and for nothing else. -/
  isMap_iff : ∀ expr, resolveType registry source (.named name) = .ok expr →
    (expr.isMap = true ↔ ∃ entry, registry.entry? (withoutDot name) = some entry)
  /-- The key and the value of the map are the results for those of the map entry. -/
  map : ∀ expr entry, resolveType registry source (.named name) = .ok expr →
    registry.entry? (withoutDot name) = some entry →
      ∃ key value, expr = .map key value ∧ resolveType registry source entry.key = .ok key ∧
        resolveType registry source entry.value = .ok value
  /-- Whatever is referred to, at any depth, is registered and no map entry. -/
  references : ∀ expr, resolveType registry source (.named name) = .ok expr →
    ∀ target ∈ expr.references, ∃ inner other, registry.find? inner = some other ∧
      registry.entry? (withoutDot inner) = none ∧ target = other.reference
  /-- Where references tell the registered types apart, none of these is that of a map entry. -/
  apart : registry.TellsApart → ∀ expr, resolveType registry source (.named name) = .ok expr →
    ∀ target ∈ expr.references, ∀ inner other, registry.get? inner = some other →
      target = other.reference → registry.entry? inner = none
  /-- The property of a field whose type is a map entry is not repeated, whatever its label says. -/
  repeated : ∀ entry, registry.entry? (withoutDot name) = some entry →
    ∀ (options : Options) (message : Message) (field : Field) (property : Property),
      field.type = .named name →
        message.property registry options source field = .ok property → property.repeated = false
  /-- It fails with the first name that is not known, of those that the name expands to: itself, and
  behind a map entry those of its key and then those of its value. -/
  fault : ∃ names, Expands registry (.named name) names ∧
    ∀ fault, resolveType registry source (.named name) = .error (.fault fault) ↔
      ∃ front missing back, names = front ++ missing :: back ∧
        (∀ known ∈ front, registry.Knows known) ∧ ¬registry.Knows missing ∧
        fault = .unknownType source (withoutDot missing)

/-- The first name that is not known is missing. -/
theorem Registry.findSome?_missing?_eq_some_iff {names : List String} {fault : Fault} :
    names.findSome? (registry.missing? source) = some fault ↔
      ∃ front missing back, names = front ++ missing :: back ∧
        (∀ known ∈ front, registry.Knows known) ∧ ¬registry.Knows missing ∧
        fault = .unknownType source (withoutDot missing) := by
  have hmissing {name : String} : registry.missing? source name = some fault ↔
      ¬registry.Knows name ∧ fault = .unknownType source (withoutDot name) := by
    rw [missing?, ite_eq_iff]
    simp [eq_comm]
  simp only [List.findSome?_eq_some_iff, missing?_eq_none_iff, hmissing]
  constructor
  · rintro ⟨front, missing, back, rfl, ⟨hunknown, hfault⟩, hfront⟩
    exact ⟨front, missing, back, rfl, hfront, hunknown, hfault⟩
  · rintro ⟨front, missing, back, rfl, hfront, hunknown, hfault⟩
    exact ⟨front, missing, back, rfl, ⟨hunknown, hfault⟩, hfront⟩

/-- What is referred to in what a type stands for is no map entry. -/
theorem Resolves.exists_plain_of_mem_references {expr : TypeExpr} {target : Reference}
    (h : Resolves registry type expr) (ht : target ∈ expr.references) :
    ∃ inner other, registry.find? inner = some other ∧
      registry.entry? (withoutDot inner) = none ∧ target = other.reference := by
  obtain ⟨inner, other, -, hf, hk, rfl⟩ := h.exists_registered_of_mem_references ht
  exact ⟨inner, other, hf, Registry.entry?_eq_none hf hk, rfl⟩

/-- **Resolution of a name from which no map entry leads back to itself ends**, with the map that is
meant where it is that of a map entry, and with the first name that is not known where there is
one. -/
theorem Registry.Unwinds.resolvesToEnd (h : registry.Unwinds (.named name)) (source : String) :
    registry.ResolvesToEnd source name := by
  obtain ⟨levels, hlevels, outcome, hends, hresult⟩ := h.exists_comesTo source
  have houtcome {expr : TypeExpr} (hok : resolveType registry source (.named name) = .ok expr) :
      ComesTo registry source (.named name) levels (.ok expr) := by
    rwa [mapError_eq_ok_iff.mp (hresult.symm.trans hok)] at hends
  have hmap (expr : TypeExpr) (entry : MapEntry)
      (hok : resolveType registry source (.named name) = .ok expr)
      (hentry : registry.entry? (withoutDot name) = some entry) :
      ∃ key value, expr = .map key value ∧ resolveType registry source entry.key = .ok key ∧
        resolveType registry source entry.value = .ok value := by
    obtain ⟨_, _, key, value, hk, hv, hkey, hvalue, rfl⟩ := (houtcome hok).exists_map hentry
    exact ⟨key, value, rfl, hkey.resolveWithin_eq (by omega), hvalue.resolveWithin_eq (by omega)⟩
  have hreferences (expr : TypeExpr)
      (hok : resolveType registry source (.named name) = .ok expr) (target : Reference)
      (ht : target ∈ expr.references) : ∃ inner other, registry.find? inner = some other ∧
        registry.entry? (withoutDot inner) = none ∧ target = other.reference :=
    (resolves_of_resolveWithin hok).exists_plain_of_mem_references ht
  constructor
  case ends => exact ⟨levels, hlevels, outcome, hends, hresult⟩
  case isMap_iff =>
    intro expr hok
    constructor
    · exact (houtcome hok).exists_entry
    · rintro ⟨entry, hentry⟩
      obtain ⟨key, value, rfl, -⟩ := hmap expr entry hok hentry
      rfl
  case map => exact hmap
  case references => exact hreferences
  case apart =>
    intro hapart expr hok target ht inner other hget heq
    obtain ⟨name', plain, hfind, hnone, rfl⟩ := hreferences expr hok target ht
    rwa [hapart _ _ _ _ hget hfind heq.symm]
  case repeated =>
    intro entry hentry options message field property htype hproperty
    obtain ⟨expr, hok, rfl⟩ := Message.property_eq_ok_iff.mp hproperty
    rw [htype] at hok
    obtain ⟨key, value, rfl, -⟩ := hmap expr entry hok hentry
    exact Bool.and_false _
  case fault =>
    obtain ⟨names, hnames, hfailure⟩ := exists_expands_resolveType h
    refine ⟨names, hnames, fun fault => ?_⟩
    rw [← failure?_eq_some_iff, hfailure, NoResult.map_fault_eq_some_iff,
      findSome?_missing?_eq_some_iff]

namespace Sample

/-- Regions of an atlas, of which the towns are in another file. -/
def atlas : File where
  name := "geo/atlas.proto"
  package := "geo"
  dependencies := ["geo/town.proto"]
  messages := [⟨"RegionsEntry", [⟨"key", 1, none, .optional, .scalar .string, none, false⟩,
      ⟨"value", 2, none, .optional, .named ".geo.TownsEntry", none, false⟩], [], [], [], true⟩,
    ⟨"GridEntry", [⟨"key", 1, none, .optional, .scalar .int32, none, false⟩,
      ⟨"value", 2, none, .optional, .named ".google.protobuf.Timestamp", none, false⟩], [], [], [],
      true⟩]
  enums := []
  services := []

/-- Towns by the squares of a grid, whose entry is in the other file. -/
def town : File where
  name := "geo/town.proto"
  package := "geo"
  dependencies := ["geo/atlas.proto"]
  messages := [⟨"TownsEntry", [⟨"key", 1, none, .optional, .named ".geo.GridEntry", none, false⟩,
      ⟨"value", 2, none, .optional, .named "geo.Town", none, false⟩], [], [], [], true⟩,
    ⟨"Town", [], [], [], [], false⟩]
  enums := []
  services := []

end Sample

/-- Three map entries, one of them the key of another, are as deep inside each other as they can
be. -/
theorem resolvesToEnd_regionsEntry :
    ∃ registry, Registry.ofFiles [Sample.atlas, Sample.town] = .ok registry ∧
      registry.entryCount = 3 ∧ registry.Unwinds (.named ".geo.RegionsEntry") ∧
      resolveType registry "geo/map.proto" (.named ".geo.RegionsEntry") = .ok
        (.map (.builtin "string") (.map (.map (.builtin "number") (.builtin "string"))
          (.object ⟨"geo$Town", "geo/town.proto"⟩))) ∧
      registry.ResolvesToEnd "geo/map.proto" ".geo.RegionsEntry" := by
  have hrun : (Registry.ofFiles [Sample.atlas, Sample.town]).map (fun registry =>
      (registry.entryCount,
        resolveType registry "geo/map.proto" (.named ".geo.RegionsEntry"))) =
      .ok (3, .ok (.map (.builtin "string") (.map (.map (.builtin "number") (.builtin "string"))
          (.object ⟨"geo$Town", "geo/town.proto"⟩)))) := by decide +kernel
  obtain ⟨registry, hreg, hlook⟩ := map_eq_ok_iff.mp hrun
  obtain ⟨hcount, hok⟩ := Prod.mk.inj hlook
  have hunwinds : registry.Unwinds (.named ".geo.RegionsEntry") :=
    (resolves_of_resolveWithin hok).unwinds
  exact ⟨registry, hreg, hcount, hunwinds, hok, hunwinds.resolvesToEnd "geo/map.proto"⟩

end ProtoClient
