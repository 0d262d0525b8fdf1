import ProtoClient.Proofs.Generation

/-!
# Which modules are selected

Names may be requested more than once, and modules may share their names. Selection goes by the
names: for each distinct request, in the order of the first requests, it takes the last module of
that name, and it fails at the first request that is the name of no module. What was selected has
different names, so selecting from it once more changes nothing.

## Main definitions

* `IsLastOf modules name module`: the module is the last one of that name
* `IsSelection modules requested selected`: one module for each requested name, in their order

## Main results

* `named?_eq_some_iff_isLastOf`: the module that is found under a name is the last one
* `eq_eraseDups_iff`: erasing repetitions keeps the first of the equal names, in order
* `select_eq_ok_iff_isSelection`, `failure?_select`: what is selected, and where selection fails
* `select_outcome`: what is selected, where selection fails, and what selecting again yields
-/

namespace ProtoClient

variable {modules selected : List ClientModule} {module : ClientModule}
  {requested : List String} {name : String} {fault : Fault}

/-- **The last module of a name**: no module behind it is called so. -/
def IsLastOf (modules : List ClientModule) (name : String) (module : ClientModule) : Prop :=
  module.name = name ∧ ∃ front back, modules = front ++ module :: back ∧
    ∀ later ∈ back, later.name ≠ name

/-- **A selection of modules**: it has one module for each requested name, the last one of that
name, in the order in which the names are first requested. -/
structure IsSelection (modules : List ClientModule) (requested : List String)
    (selected : List ClientModule) : Prop where
  requested_iff : ∀ name, (∃ module ∈ selected, module.name = name) ↔ name ∈ requested
  ordered : selected.Pairwise fun earlier later =>
    requested.idxOf earlier.name < requested.idxOf later.name
  last : ∀ module ∈ selected, IsLastOf modules module.name module

/-! ### Names without their repetitions -/

/-- What stays of a list without its repetitions stands in the order of first occurrence. -/
theorem pairwise_idxOf_eraseDups (names : List String) :
    names.eraseDups.Pairwise fun a b => names.idxOf a < names.idxOf b := by
  -- the induction is from the end: a name behind others stays only if it is none of them
  induction names using List.reverseRecOn with
  | nil => exact .nil
  | append_singleton names name ih =>
    have hfront : names.eraseDups.Pairwise fun a b =>
        (names ++ [name]).idxOf a < (names ++ [name]).idxOf b := by
      apply ih.imp_of_mem
      intro a b ha hb hlt
      rwa [List.idxOf_append_of_mem (List.mem_eraseDups.mp ha),
        List.idxOf_append_of_mem (List.mem_eraseDups.mp hb)]
    rw [eraseDups_concat]
    split
    · exact hfront
    · next hnotMem =>
      refine List.pairwise_append.mpr ⟨hfront, List.pairwise_singleton _ _, ?_⟩
      intro a ha b hb
      obtain rfl := List.mem_singleton.mp hb
      have hmem := List.mem_eraseDups.mp ha
      have hlt := List.idxOf_lt_length_of_mem hmem
      rw [List.idxOf_append_of_mem hmem, List.idxOf_append_of_notMem hnotMem]
      omega

/-- **Erasing repetitions keeps the names, in the order of first occurrence**, and nothing else
does. -/
theorem eq_eraseDups_iff {names : List String} :
    names = requested.eraseDups ↔ (∀ name, name ∈ names ↔ name ∈ requested) ∧
      names.Pairwise fun a b => requested.idxOf a < requested.idxOf b := by
  constructor
  · rintro rfl
    exact ⟨fun name => List.mem_eraseDups, pairwise_idxOf_eraseDups requested⟩
  · rintro ⟨hmem, hordered⟩
    refine eq_of_increasing (fun a b hab hba => Nat.lt_asymm hab hba) hordered
      (pairwise_idxOf_eraseDups requested) fun name => ?_
    rw [hmem, List.mem_eraseDups]

/-- A search finds the same when repetitions are erased. -/
theorem findSome?_eraseDups {β : Type} (f : String → Option β) (names : List String) :
    names.eraseDups.findSome? f = names.findSome? f := by
  induction names using List.reverseRecOn with
  | nil => rfl
  | append_singleton names name ih =>
    rw [eraseDups_concat, List.findSome?_append]
    split
    · next hmem =>
      rw [ih]
      cases hfound : names.findSome? f with
      | some value => rfl
      | none => simp [List.findSome?_eq_none_iff.mp hfound name hmem]
    · rw [List.findSome?_append, ih]

/-! ### The module of a name -/

/-- **The module that is found under a name is the last one of that name.** -/
theorem named?_eq_some_iff_isLastOf :
    named? modules name = some module ↔ IsLastOf modules name module := by
  rw [named?, List.find?_eq_some_iff_append, IsLastOf, decide_eq_true_eq, exists_reverse_eq_iff]
  simp

/-- A wanted name has a module when some module is called so. -/
theorem exists_wanted_iff :
    (∃ module, wanted modules name = .ok module) ↔ ∃ module ∈ modules, module.name = name := by
  simp only [wanted_eq_ok_iff]
  constructor
  · rintro ⟨module, hnamed⟩
    exact ⟨module, mem_of_named? hnamed, named?_name hnamed⟩
  · rintro ⟨module, hmem, rfl⟩
    exact exists_named? hmem

theorem failure?_wanted_eq_some_iff :
    failure? (wanted modules name) = some fault ↔
      (∀ module ∈ modules, module.name ≠ name) ∧ fault = .missingFile name := by
  have hnone : named? modules name = none ↔ ∀ module ∈ modules, module.name ≠ name := by
    simp [named?]
  rw [← hnone, wanted]
  cases named? modules name <;> simp [eq_comm]

/-! ### What is selected -/

/-- What is selected are the modules of the distinct requests, in order. -/
theorem select_eq_ok_iff :
    select modules requested = .ok selected ↔
      List.Forall₂ (fun name module => named? modules name = some module) requested.eraseDups
        selected := by
  rw [select_eq_mapM, mapM_eq_ok_iff]
  simp only [wanted_eq_ok_iff]

/-- **What is selected is a selection**, and there is no other. -/
theorem select_eq_ok_iff_isSelection :
    select modules requested = .ok selected ↔ IsSelection modules requested selected := by
  have hnames : selected.map ClientModule.name = requested.eraseDups ↔
      (∀ name, (∃ module ∈ selected, module.name = name) ↔ name ∈ requested) ∧
        selected.Pairwise fun earlier later =>
          requested.idxOf earlier.name < requested.idxOf later.name := by
    rw [eq_eraseDups_iff, List.pairwise_map]
    simp only [List.mem_map]
  constructor
  · intro h
    obtain ⟨hrequested, hordered⟩ := hnames.mp (names_of_select h)
    refine ⟨hrequested, hordered, fun module hmem => ?_⟩
    obtain ⟨name, -, hnamed⟩ := exists_left_of_forall₂ (select_eq_ok_iff.mp h) hmem
    rw [named?_name hnamed]
    exact named?_eq_some_iff_isLastOf.mp hnamed
  · intro h
    rw [select_eq_ok_iff, ← hnames.mpr ⟨h.requested_iff, h.ordered⟩, List.forall₂_map_left_iff,
      List.forall₂_same]
    exact fun module hmem => named?_eq_some_iff_isLastOf.mpr (h.last module hmem)

/-- The modules of a selection have different names. -/
theorem IsSelection.nodup (h : IsSelection modules requested selected) :
    (selected.map ClientModule.name).Nodup := by
  rw [List.Nodup, List.pairwise_map]
  apply h.ordered.imp
  intro earlier later hlt hname
  rw [hname] at hlt
  exact Nat.lt_irrefl _ hlt

/-- **A selection is a selection from itself.** -/
theorem IsSelection.self (h : IsSelection modules requested selected) :
    IsSelection selected requested selected where
  requested_iff := h.requested_iff
  ordered := h.ordered
  last module hmem := by
    rw [← named?_eq_some_iff_isLastOf, named?_eq_some_iff h.nodup]
    exact ⟨hmem, rfl⟩

/-- **Selection fails at the first request that is the name of no module**, whether or not other
requests are repeated before it. -/
theorem failure?_select (modules : List ClientModule) (requested : List String) :
    failure? (select modules requested) =
      requested.findSome? fun name => failure? (wanted modules name) := by
  rw [select_eq_mapM, failure?_mapM, findSome?_eraseDups]

theorem select_eq_error_iff :
    select modules requested = .error fault ↔
      ∃ front name back, requested = front ++ name :: back ∧
        (∀ earlier ∈ front, ∃ module ∈ modules, module.name = earlier) ∧
        (∀ module ∈ modules, module.name ≠ name) ∧ fault = .missingFile name := by
  rw [← failure?_eq_some_iff, failure?_select, List.findSome?_eq_some_iff]
  simp only [failure?_wanted_eq_some_iff, failure?_eq_none_iff, exists_wanted_iff]
  constructor
  · rintro ⟨front, name, back, hsplit, ⟨hmissing, rfl⟩, hfront⟩
    exact ⟨front, name, back, hsplit, hfront, hmissing, rfl⟩
  · rintro ⟨front, name, back, hsplit, hfront, hmissing, rfl⟩
    exact ⟨front, name, back, hsplit, ⟨hmissing, rfl⟩, hfront⟩

/-- Selection fails when some request is the name of no module. -/
theorem exists_select_eq_error_iff :
    (∃ fault, select modules requested = .error fault) ↔
      ∃ name ∈ requested, ∀ module ∈ modules, module.name ≠ name := by
  have hfails : (∃ fault, select modules requested = .error fault) ↔
      ¬failure? (select modules requested) = none := by
    simp only [← failure?_eq_some_iff, ← Option.isSome_iff_exists, Option.isSome_iff_ne_none, ne_eq]
  rw [hfails, failure?_select]
  simp only [List.findSome?_eq_none_iff, failure?_eq_none_iff, exists_wanted_iff]
  push Not
  rfl

/-- A selected module has an operation when the last module of some requested name has one. -/
theorem IsSelection.any_needsFetch_iff (h : IsSelection modules requested selected) :
    selected.any ClientModule.needsFetch = true ↔
      ∃ name ∈ requested, ∃ module, IsLastOf modules name module ∧
        ∃ client ∈ module.clients, client.operations ≠ [] := by
  have hneeds (module : ClientModule) :
      module.needsFetch = true ↔ ∃ client ∈ module.clients, client.operations ≠ [] := by
    simp [ClientModule.needsFetch, Client.isCallable]
  simp only [List.any_eq_true, hneeds]
  constructor
  · rintro ⟨module, hmem, hcalls⟩
    exact ⟨module.name, (h.requested_iff _).mp ⟨module, hmem, rfl⟩, module, h.last module hmem,
      hcalls⟩
  · rintro ⟨name, hname, module, hlast, hcalls⟩
    obtain ⟨other, hmem, rfl⟩ := (h.requested_iff name).mpr hname
    have hother := named?_eq_some_iff_isLastOf.mpr (h.last other hmem)
    rw [named?_eq_some_iff_isLastOf.mpr hlast, Option.some.injEq] at hother
    exact ⟨module, hother ▸ hmem, hcalls⟩

/-- **Selection keeps one module for each requested name**: the last one of that name, in the order
of the first requests, and it fails at the first request that is the name of no module. Only what is
selected counts for the shared fetch module, and selecting from it once more changes nothing. -/
theorem select_outcome (modules : List ClientModule) (requested : List String) :
    (∀ selected, select modules requested = .ok selected ↔
      IsSelection modules requested selected) ∧
    ((∃ fault, select modules requested = .error fault) ↔
      ∃ name ∈ requested, ∀ module ∈ modules, module.name ≠ name) ∧
    (∀ fault, select modules requested = .error fault ↔
      ∃ front name back, requested = front ++ name :: back ∧
        (∀ earlier ∈ front, ∃ module ∈ modules, module.name = earlier) ∧
        (∀ module ∈ modules, module.name ≠ name) ∧ fault = .missingFile name) ∧
    ∀ selected, select modules requested = .ok selected →
      (selected.any ClientModule.needsFetch = true ↔
        ∃ name ∈ requested, ∃ module, IsLastOf modules name module ∧
          ∃ client ∈ module.clients, client.operations ≠ []) ∧
      select selected requested = .ok selected := by
  refine ⟨fun selected => select_eq_ok_iff_isSelection, exists_select_eq_error_iff,
    fun fault => select_eq_error_iff, fun selected h => ?_⟩
  have hselection := select_eq_ok_iff_isSelection.mp h
  exact ⟨hselection.any_needsFetch_iff, select_eq_ok_iff_isSelection.mpr hselection.self⟩

namespace Sample

/-- A module without declarations, in one of several versions. -/
def version (name package : String) : ClientModule :=
  ⟨name, package, outputPath name, [], [], [], [], none, false⟩

/-- Modules of which two are called alike, and the earlier of these calls the server. -/
def versions : List ClientModule := [
  { version "user.proto" "old" with
    clients := [⟨"Users", "Users", [⟨"List", .builtin "\x7b\x7d", .builtin "\x7b\x7d", false, false,
      ⟨"GET", "/v1/users", none, []⟩⟩], []⟩] },
  version "item.proto" "",
  version "user.proto" "new"]

end Sample

/-- The later of two modules of one name is selected, once, and it does not call the server. -/
theorem select_outcome_versions :
    select Sample.versions ["user.proto", "item.proto", "user.proto"] =
        .ok [Sample.version "user.proto" "new", Sample.version "item.proto" ""] ∧
      select [Sample.version "user.proto" "new", Sample.version "item.proto" ""]
          ["user.proto", "item.proto", "user.proto"] =
        .ok [Sample.version "user.proto" "new", Sample.version "item.proto" ""] := by
  have hselect : select Sample.versions ["user.proto", "item.proto", "user.proto"] =
      .ok [Sample.version "user.proto" "new", Sample.version "item.proto" ""] := by decide +kernel
  exact ⟨hselect, ((select_outcome _ _).2.2.2 _ hselect).2⟩

end ProtoClient
