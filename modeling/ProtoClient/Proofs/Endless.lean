import ProtoClient.Proofs.FirstFault
import ProtoClient.Proofs.MapDepth

/-!
# What never ends

A type that leads back to a map entry on the way to it may come to nothing: however deep it is
followed, there is more to follow. Resolution looks no deeper than there are map entries. This is
deep enough for every type that comes to anything, since the entries on its longest way down are
different ones, so where resolution gives up it would give up at any depth. A run whose first unmet
demand is for such a type does not come to an end.

## Main definitions

* `WayDown registry source names levels`: the map entries on a way down of so many levels
* `Demand.IsEndless registry source demand`: the demand is for a type that comes to nothing

## Main results

* `ComesTo.levels_le`: what comes to something does so with a level for each map entry at most, and
  one more
* `resolveType_eq_mapError_iff`, `resolveType_eq_endless_iff`: resolution yields what a type comes
  to, and has no end where it comes to nothing
* `resolveType_eq_endless_iff_forall`: where resolution has no end, it has none at any depth
* `Demand.isMet_iff`: a demand is met when its resolution succeeds
* `modulesOf_eq_endless_iff`: when a run does not come to an end
-/

namespace ProtoClient

variable {registry : Registry} {source name : String} {type : FieldType} {entry : MapEntry}
  {levels depth : Nat} {outcome : Except Fault TypeExpr}

/-! ### How deep it goes -/

/-- A key without end, or a value without end behind a key that stands for something, makes a map
entry without end. -/
theorem resolveWithin_entry_eq_error_iff (h : registry.entry? (withoutDot name) = some entry)
    {reason : NoResult} :
    resolveWithin registry source (depth + 1) (.named name) = .error reason ↔
      resolveWithin registry source depth entry.key = .error reason ∨
        ∃ key, resolveWithin registry source depth entry.key = .ok key ∧
          resolveWithin registry source depth entry.value = .error reason := by
  rw [resolveWithin_entry h, bind_eq_error_iff]
  simp [bind_eq_error_iff, pure, Except.pure]

/-- Without room for its key and its value, a map entry has no end, when these have none without
room for them. -/
theorem resolveWithin_entry_eq_endless (h : registry.entry? (withoutDot name) = some entry)
    {keyLevels valueLevels : Nat} {key : TypeExpr}
    (hkey : ComesTo registry source entry.key keyLevels (.ok key))
    (hkeyShort : ∀ depth, depth + 1 < keyLevels →
      resolveWithin registry source depth entry.key = .error .endless)
    (hvalueShort : ∀ depth, depth + 1 < valueLevels →
      resolveWithin registry source depth entry.value = .error .endless)
    (hshort : depth < max keyLevels valueLevels) :
    resolveWithin registry source depth (.named name) = .error .endless := by
  cases depth with
  | zero => exact resolveWithin_entry_zero h
  | succ below =>
    rw [resolveWithin_entry_eq_error_iff h]
    by_cases hroom : keyLevels ≤ below + 1
    · exact .inr ⟨key, hkey.resolveWithin_eq hroom, hvalueShort below (by omega)⟩
    · exact .inl (hkeyShort below (by omega))

/-- **Without room for its levels, resolution does not come to an end.** -/
theorem ComesTo.resolveWithin_eq_endless (h : ComesTo registry source type levels outcome)
    (hshort : depth + 1 < levels) : resolveWithin registry source depth type = .error .endless := by
  induction h generalizing depth with
  | scalar | wellKnown | unknown | enumeration | object => omega
  | keyFault h hkey ih =>
    cases depth with
    | zero => exact resolveWithin_entry_zero h
    | succ below => exact (resolveWithin_entry_eq_error_iff h).mpr (.inl (ih (by omega)))
  | valueFault h hkey hvalue ihk ihv | map h hkey hvalue ihk ihv =>
    exact resolveWithin_entry_eq_endless h hkey (fun _ => ihk) (fun _ => ihv) (by omega)

/-- A dot in front of a name does not count for its resolution. -/
theorem resolveWithin_congr {other : String} (h : withoutDot name = withoutDot other) :
    resolveWithin registry source depth (.named name) =
      resolveWithin registry source depth (.named other) := by
  cases depth <;> simp only [resolveWithin, builtin?, Registry.find?, h]

/-- A name comes to something with the same levels, whether or not it has a dot in front. -/
theorem ComesTo.levels_le_of_withoutDot_eq {other : String} {levels' : Nat}
    {outcome' : Except Fault TypeExpr} (h : ComesTo registry source (.named name) levels outcome)
    (h' : ComesTo registry source (.named other) levels' outcome')
    (heq : withoutDot name = withoutDot other) : levels' ≤ levels := by
  by_contra hlt
  have hpos := h.levels_pos
  have hends := h.resolveWithin_eq (show levels ≤ levels - 1 + 1 by omega)
  rw [resolveWithin_congr heq, h'.resolveWithin_eq_endless (by omega)] at hends
  cases outcome <;> cases hends

/-- **The map entries on a way down** of so many levels: they are different, and each comes to
something with no more levels than these. -/
structure WayDown (registry : Registry) (source : String) (names : List String) (levels : Nat) :
    Prop where
  nodup : names.Nodup
  isSome_entry? : ∀ name ∈ names, (registry.entry? name).isSome
  length_eq : names.length + 1 = levels
  comesTo : ∀ name ∈ names, ∃ spelled inner outcome, withoutDot spelled = name ∧ inner ≤ levels ∧
    ComesTo registry source (.named spelled) inner outcome

namespace WayDown

theorem nil : WayDown registry source [] 1 :=
  ⟨.nil, by simp, rfl, by simp⟩

/-- A map entry with one more level is none of those on the way down from it. -/
theorem cons {names : List String} (hway : WayDown registry source names levels)
    (hentry : registry.entry? (withoutDot name) = some entry)
    (h : ComesTo registry source (.named name) (levels + 1) outcome) :
    WayDown registry source (withoutDot name :: names) (levels + 1) := by
  refine ⟨List.nodup_cons.mpr ⟨?_, hway.nodup⟩, ?_, ?_, ?_⟩
  · intro hmem
    obtain ⟨spelled, inner, _, hspelled, hinner, hcomes⟩ := hway.comesTo _ hmem
    have hle := hcomes.levels_le_of_withoutDot_eq h hspelled
    omega
  · refine List.forall_mem_cons.mpr ⟨?_, hway.isSome_entry?⟩
    rw [hentry]
    rfl
  · rw [List.length_cons, hway.length_eq]
  · refine List.forall_mem_cons.mpr ⟨⟨name, _, _, rfl, Nat.le_refl _, h⟩, fun other hother => ?_⟩
    obtain ⟨spelled, inner, result, hspelled, hinner, hcomes⟩ := hway.comesTo other hother
    exact ⟨spelled, inner, result, hspelled, by omega, hcomes⟩

/-- A map entry stands on top of the longer way down from its key and its value. -/
theorem exists_cons_max {keyNames valueNames : List String} {keyLevels valueLevels : Nat}
    (hkey : WayDown registry source keyNames keyLevels)
    (hvalue : WayDown registry source valueNames valueLevels)
    (hentry : registry.entry? (withoutDot name) = some entry)
    (h : ComesTo registry source (.named name) (max keyLevels valueLevels + 1) outcome) :
    ∃ names, WayDown registry source names (max keyLevels valueLevels + 1) := by
  rcases Nat.le_total valueLevels keyLevels with hle | hle
  · rw [Nat.max_eq_left hle] at h ⊢
    exact ⟨_, hkey.cons hentry h⟩
  · rw [Nat.max_eq_right hle] at h ⊢
    exact ⟨_, hvalue.cons hentry h⟩

end WayDown

/-- What comes to something has a way down of all its levels. -/
theorem ComesTo.exists_wayDown (h : ComesTo registry source type levels outcome) :
    ∃ names, WayDown registry source names levels := by
  induction h with
  | scalar | wellKnown | unknown | enumeration | object => exact ⟨[], .nil⟩
  | keyFault hentry hkey ih =>
    obtain ⟨names, hnames⟩ := ih
    exact ⟨_, hnames.cons hentry (.keyFault hentry hkey)⟩
  | valueFault hentry hkey hvalue ihk ihv =>
    obtain ⟨keyNames, hkeyNames⟩ := ihk
    obtain ⟨valueNames, hvalueNames⟩ := ihv
    exact hkeyNames.exists_cons_max hvalueNames hentry (.valueFault hentry hkey hvalue)
  | map hentry hkey hvalue ihk ihv =>
    obtain ⟨keyNames, hkeyNames⟩ := ihk
    obtain ⟨valueNames, hvalueNames⟩ := ihv
    exact hkeyNames.exists_cons_max hvalueNames hentry (.map hentry hkey hvalue)

/-- **What comes to something does so with a level for each map entry at most**, and one more. -/
theorem ComesTo.levels_le (h : ComesTo registry source type levels outcome) :
    levels ≤ registry.entryCount + 1 := by
  obtain ⟨names, hnames⟩ := h.exists_wayDown
  have hlength := Registry.length_le_entryCount hnames.nodup hnames.isSome_entry?
  rw [← hnames.length_eq]
  omega

/-! ### What resolution says -/

/-- Where resolution comes to an end, the type comes to something. -/
theorem exists_comesTo_of_ne_endless
    (h : resolveWithin registry source depth type ≠ .error .endless) :
    ∃ levels ≤ depth + 1, ∃ outcome, ComesTo registry source type levels outcome := by
  -- the induction is on the depth: the key and the value of a map are resolved one level deeper
  induction depth using Nat.strongRecOn generalizing type with
  | ind depth ih =>
    cases type with
    | scalar scalar => exact ⟨1, by omega, _, .scalar scalar⟩
    | named name =>
      cases hentry : registry.entry? (withoutDot name) with
      | none =>
        obtain ⟨outcome, houtcome⟩ := exists_comesTo_plain hentry source
        exact ⟨1, by omega, outcome, houtcome⟩
      | some entry =>
        cases depth with
        | zero => exact absurd (resolveWithin_entry_zero hentry) h
        | succ below =>
          rw [Ne, resolveWithin_entry_eq_error_iff hentry, not_or] at h
          obtain ⟨keyLevels, hkeyLevels, key, hkey⟩ := ih below (by omega) h.1
          cases key with
          | error fault => exact ⟨_, by omega, _, .keyFault hentry hkey⟩
          | ok key =>
            have hvalueEnds : resolveWithin registry source below entry.value ≠ .error .endless :=
              fun hvalue => h.2 ⟨key, hkey.resolveWithin_eq hkeyLevels, hvalue⟩
            obtain ⟨valueLevels, hvalueLevels, value, hvalue⟩ := ih below (by omega) hvalueEnds
            cases value with
            | error fault => exact ⟨_, by omega, _, .valueFault hentry hkey hvalue⟩
            | ok value => exact ⟨_, by omega, _, .map hentry hkey hvalue⟩

/-- **Resolution yields what a type comes to**, and nothing else. -/
theorem resolveType_eq_mapError_iff :
    resolveType registry source type = outcome.mapError .fault ↔
      ∃ levels, ComesTo registry source type levels outcome := by
  constructor
  · intro h
    have hends : resolveType registry source type ≠ .error .endless := by
      rw [h]
      cases outcome <;> simp [Except.mapError]
    obtain ⟨levels, hlevels, other, hother⟩ := exists_comesTo_of_ne_endless hends
    have heq : outcome = other := eq_of_mapError_eq (fun _ _ => NoResult.fault.inj)
      (h.symm.trans (hother.resolveWithin_eq hlevels))
    exact ⟨levels, heq ▸ hother⟩
  · rintro ⟨levels, h⟩
    exact h.resolveWithin_eq h.levels_le

/-- Resolution fails with the fault that a type comes to. -/
theorem resolveType_eq_fault_iff {fault : Fault} :
    resolveType registry source type = .error (.fault fault) ↔
      ∃ levels, ComesTo registry source type levels (.error fault) :=
  @resolveType_eq_mapError_iff registry source type (.error fault)

/-- **Resolution has no end where a type comes to nothing.** -/
theorem resolveType_eq_endless_iff :
    resolveType registry source type = .error .endless ↔
      ∀ levels outcome, ¬ComesTo registry source type levels outcome := by
  constructor
  · intro h levels outcome hcomes
    rw [resolveType_eq_mapError_iff.mpr ⟨levels, hcomes⟩] at h
    cases outcome <;> cases h
  · intro h
    by_contra hends
    obtain ⟨levels, -, outcome, hcomes⟩ := exists_comesTo_of_ne_endless hends
    exact h levels outcome hcomes

/-- **Where resolution has no end, it has none at any depth.** -/
theorem resolveType_eq_endless_iff_forall :
    resolveType registry source type = .error .endless ↔
      ∀ depth, resolveWithin registry source depth type = .error .endless := by
  refine ⟨fun h depth => ?_, fun h => h _⟩
  by_contra hends
  obtain ⟨levels, -, outcome, hcomes⟩ := exists_comesTo_of_ne_endless hends
  exact resolveType_eq_endless_iff.mp h levels outcome hcomes

/-! ### Demands -/

/-- A type that expands to known names comes to a type expression. -/
theorem Expands.exists_comesTo {names : List String} (h : Expands registry type names)
    (hknows : ∀ name ∈ names, registry.Knows name) (source : String) :
    ∃ levels expr, ComesTo registry source type levels (.ok expr) := by
  induction h with
  | scalar scalar => exact ⟨1, _, .scalar scalar⟩
  | @plain name hplain =>
    obtain ⟨outcome, houtcome⟩ := exists_comesTo_plain hplain source
    have hfailure : failure? (resolveWithin registry source 0 (.named name)) =
        (registry.missing? source name).map .fault := failure?_resolveWithin_plain hplain 0
    rw [houtcome.resolveWithin_eq (by omega),
      Registry.missing?_eq_none_iff.mpr (hknows name (List.mem_singleton_self name))] at hfailure
    cases outcome with
    | ok expr => exact ⟨1, expr, houtcome⟩
    | error fault => cases hfailure
  | entry hentry _ _ ihk ihv =>
    obtain ⟨hkeyNames, hvalueNames⟩ := List.forall_mem_append.mp (List.forall_mem_cons.mp hknows).2
    obtain ⟨_, key, hkey⟩ := ihk hkeyNames
    obtain ⟨_, value, hvalue⟩ := ihv hvalueNames
    exact ⟨_, _, .map hentry hkey hvalue⟩

/-- **A demand is met when its resolution succeeds.** -/
theorem Demand.isMet_iff {demand : Demand} :
    demand.IsMet registry ↔ demand.failure? registry source = none := by
  cases demand with
  | known type =>
    rw [failure?, failure?_eq_none_iff]
    constructor
    · rintro ⟨names, hnames, hknows⟩
      obtain ⟨levels, expr, hcomes⟩ := hnames.exists_comesTo hknows source
      exact ⟨expr, resolveType_eq_mapError_iff.mpr ⟨levels, hcomes⟩⟩
    · rintro ⟨expr, hok⟩
      obtain ⟨names, hnames, hfailure⟩ :=
        exists_expands_resolveType (resolves_of_resolveWithin hok).unwinds
      refine ⟨names, hnames, ?_⟩
      have hfound := (hfailure source).symm.trans (congrArg ProtoClient.failure? hok)
      rw [failure?_ok, Option.map_eq_none_iff, List.findSome?_eq_none_iff] at hfound
      exact fun name hname => Registry.missing?_eq_none_iff.mp (hfound name hname)
  | template method path =>
    rw [failure?, templateFault?, IsMet, Option.map_eq_none_iff, Option.map_eq_none_iff,
      failure?_eq_none_iff]

/-- **A demand is endless** when it is for a type that comes to nothing. -/
inductive Demand.IsEndless (registry : Registry) (source : String) : Demand → Prop
  | known {type : FieldType}
    (h : ∀ levels outcome, ¬ComesTo registry source type levels outcome) :
    IsEndless registry source (.known type)

/-- The resolution of a demand has no end when the demand is endless. -/
theorem Demand.isEndless_iff {demand : Demand} :
    demand.IsEndless registry source ↔ demand.failure? registry source = some .endless := by
  cases demand with
  | known type =>
    rw [failure?, failure?_eq_some_iff, resolveType_eq_endless_iff]
    constructor
    · rintro ⟨h⟩
      exact h
    · exact .known
  | template method path =>
    constructor
    · rintro ⟨⟩
    · exact fun h => absurd h (NoResult.map_fault_ne_endless _)

/-- **A run does not come to an end** when its types are registered, and the first demand, of the
first file, that is not met is endless. -/
theorem modulesOf_eq_endless_iff {options : Options} {files : List File} :
    modulesOf options files = .error .endless ↔
      ∃ registry front file back before demand after, Registry.ofFiles files = .ok registry ∧
        files = front ++ file :: back ∧
        (∀ earlier ∈ front, ∀ demand ∈ earlier.demands, demand.IsMet registry) ∧
        file.demands = before ++ demand :: after ∧
        (∀ earlier ∈ before, earlier.IsMet registry) ∧ demand.IsEndless registry file.name := by
  rw [← failure?_eq_some_iff]
  cases hreg : Registry.ofFiles files with
  | error fault => simp [modulesOf, hreg, bind, Except.bind, Except.mapError]
  | ok registry =>
    rw [failure?_modulesOf hreg]
    simp only [List.findSome?_eq_some_iff, List.findSome?_eq_none_iff, ← Demand.isMet_iff,
      ← Demand.isEndless_iff]
    constructor
    · rintro ⟨front, file, back, hfiles, ⟨before, demand, after, hd, hend, hbefore⟩, hfront⟩
      exact ⟨registry, front, file, back, before, demand, after, rfl, hfiles, hfront, hd, hbefore,
        hend⟩
    · rintro ⟨_, front, file, back, before, demand, after, ⟨⟩, hfiles, hfront, hd, hbefore, hend⟩
      exact ⟨front, file, back, hfiles, ⟨before, demand, after, hd, hend, hbefore⟩, hfront⟩

end ProtoClient
