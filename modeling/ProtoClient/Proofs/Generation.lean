import Mathlib.Data.List.Induction
import Mathlib.Data.List.Nodup
import ProtoClient.Generation
import ProtoClient.Proofs.Resolution

/-!
# What a run puts out

Once the modules of a run are resolved, what is left of it depends on the module of each requested
name alone. Its outputs stand in the order of the first requests, one for each distinct name, and
the shared fetch module comes last.

## Main definitions

* `outputFor? requested outputs name`: the output that a run has for a requested file

## Main results

* `named?_eq_some_iff`: of modules with different names, the one of a name is the only one
* `outputsOf_congr`: the modules of the requested names decide the outputs
* `outputsOf_eq_ok_iff`: the outputs are those of the selected modules and the fetch module
* `exists_outputFor?`: every requested file has its output, made from its module
-/

namespace ProtoClient

open Text

variable {options : Options} {renderer : Renderer} {probe : Probe}
  {modules modules' selected : List ClientModule} {module : ClientModule}
  {requested : List String} {outputs : List Output} {name : String}

/-! ### Selection -/

/-- A module of a name is one of the modules. -/
theorem mem_of_named? (h : named? modules name = some module) : module ∈ modules :=
  List.mem_reverse.mp (List.mem_of_find?_eq_some h)

/-- A name has a module when some module is called so. -/
theorem exists_named? (h : module ∈ modules) : ∃ last, named? modules module.name = some last := by
  rw [← Option.isSome_iff_exists, named?, List.find?_isSome]
  exact ⟨module, List.mem_reverse.mpr h, by simp⟩

/-- Of modules with different names, the one of a name is the only one. -/
theorem named?_eq_some_iff (hd : (modules.map ClientModule.name).Nodup) :
    named? modules name = some module ↔ module ∈ modules ∧ module.name = name := by
  refine ⟨fun h => ⟨mem_of_named? h, named?_name h⟩, ?_⟩
  rintro ⟨hm, rfl⟩
  obtain ⟨last, hl⟩ := exists_named? hm
  rw [hl, List.inj_on_of_nodup_map hd (mem_of_named? hl) hm (named?_name hl)]

/-- Modules with different names are found in any order. -/
theorem named?_of_perm (hd : (modules.map ClientModule.name).Nodup) (hp : modules.Perm modules')
    (name : String) : named? modules name = named? modules' name := by
  apply Option.ext
  intro module
  rw [named?_eq_some_iff hd, named?_eq_some_iff ((hp.map _).nodup hd), hp.mem_iff]

/-- The module of a requested name, or the fault that there is none. -/
def wanted (modules : List ClientModule) (name : String) : Except Fault ClientModule :=
  match named? modules name with
  | some module => .ok module
  | none => .error (.missingFile name)

theorem wanted_eq_ok_iff :
    wanted modules name = .ok module ↔ named? modules name = some module := by
  rw [wanted]
  cases named? modules name <;> simp

theorem select_eq_mapM (modules : List ClientModule) (requested : List String) :
    select modules requested = requested.eraseDups.mapM (wanted modules) :=
  rfl

/-- The modules of the requested names decide what is selected. -/
theorem select_congr (h : ∀ name ∈ requested, named? modules name = named? modules' name) :
    select modules requested = select modules' requested := by
  rw [select_eq_mapM, select_eq_mapM]
  apply mapM_congr
  intro name hn
  rw [wanted, wanted, h name (List.mem_eraseDups.mp hn)]

/-- The selected modules are named after the distinct requests. -/
theorem names_of_select (h : select modules requested = .ok selected) :
    selected.map ClientModule.name = requested.eraseDups := by
  rw [select_eq_mapM] at h
  rw [map_of_mapM (fun name module hw => named?_name (wanted_eq_ok_iff.mp hw)) h, List.map_id']

/-- A selected module is one of the modules. -/
theorem mem_of_select (h : select modules requested = .ok selected) (hm : module ∈ selected) :
    module ∈ modules := by
  rw [select_eq_mapM] at h
  obtain ⟨name, -, hw⟩ := exists_of_mem_of_mapM h hm
  exact mem_of_named? (wanted_eq_ok_iff.mp hw)

/-- **The shared fetch module is needed** when a requested file can be called. -/
theorem any_needsFetch_iff {files : List File} (hd : (files.map File.name).Nodup)
    (hm : modulesOf options files = .ok modules) (hs : select modules requested = .ok selected) :
    selected.any ClientModule.needsFetch = true ↔
      ∃ file ∈ files, file.name ∈ requested ∧ file.isCallable = true := by
  obtain ⟨registry, -, hok⟩ := modulesOf_eq_ok_iff.mp hm
  rw [List.any_eq_true]
  constructor
  · rintro ⟨module, hsel, hfetch⟩
    obtain ⟨file, hf, hfile⟩ := exists_of_mem_of_mapM hok (mem_of_select hs hsel)
    refine ⟨file, hf, ?_, ClientModule.needsFetch_of_ofFile? hfile ▸ hfetch⟩
    rw [← ClientModule.name_of_ofFile? hfile, ← List.mem_eraseDups, ← names_of_select hs]
    exact List.mem_map_of_mem hsel
  · rintro ⟨file, hf, hreq, hcall⟩
    obtain ⟨module, hmod, hfile⟩ := exists_mem_of_mapM hok hf
    rw [select_eq_mapM] at hs
    obtain ⟨other, hsel, hw⟩ := exists_mem_of_mapM hs (List.mem_eraseDups.mpr hreq)
    have hnamed := (named?_eq_some_iff (names_of_modulesOf hm ▸ hd)).mpr
      ⟨hmod, ClientModule.name_of_ofFile? hfile⟩
    cases hnamed.symm.trans (wanted_eq_ok_iff.mp hw)
    exact ⟨module, hsel, ClientModule.needsFetch_of_ofFile? hfile ▸ hcall⟩

/-! ### Names without repetitions -/

/-- A name behind others is erased when it is one of them. -/
theorem eraseDups_concat (names : List String) (name : String) :
    (names ++ [name]).eraseDups =
      if name ∈ names then names.eraseDups else names.eraseDups ++ [name] := by
  rw [List.eraseDups_append]
  by_cases hm : name ∈ names <;> simp [List.removeAll, hm, List.eraseDups_cons]

/-- A list without its repetitions has none. -/
theorem nodup_eraseDups (names : List String) : names.eraseDups.Nodup := by
  induction names using List.reverseRecOn with
  | nil => exact .nil
  | append_singleton names name ih =>
    rw [eraseDups_concat]
    by_cases hm : name ∈ names
    · rwa [if_pos hm]
    · rw [if_neg hm, ← List.concat_eq_append]
      exact ih.concat (mt List.mem_eraseDups.mp hm)

/-- Nothing is erased from a list without repetitions. -/
theorem eraseDups_of_nodup {names : List String} (h : names.Nodup) : names.eraseDups = names := by
  induction names using List.reverseRecOn with
  | nil => rfl
  | append_singleton names name ih =>
    obtain ⟨hnames, -, hne⟩ := List.nodup_append.mp h
    have hm : name ∉ names := fun hm => hne name hm name (List.mem_singleton_self name) rfl
    rw [eraseDups_concat, if_neg hm, ih hnames]

/-! ### The outputs -/

/-- A run has outputs when its modules are resolved and what is left of it succeeds. -/
theorem generate_eq_ok {request : Request} :
    generate options renderer probe request = .ok outputs ↔
      ∃ modules, modulesOf options request.files = .ok modules ∧
        outputsOf options renderer probe modules request.requested = .ok outputs := by
  rw [generate, bind_eq_ok_iff]
  simp only [mapError_eq_ok_iff]

/-- The modules of the requested names decide the outputs. -/
theorem outputsOf_congr (options : Options) (renderer : Renderer) (probe : Probe)
    (h : ∀ name ∈ requested, named? modules name = named? modules' name) :
    outputsOf options renderer probe modules requested =
      outputsOf options renderer probe modules' requested := by
  rw [outputsOf, outputsOf, select_congr h]

/-- **The outputs of a run** are those of the selected modules, and that of the shared fetch module
if a selected module needs it and it is not there already. -/
theorem outputsOf_eq_ok_iff :
    outputsOf options renderer probe modules requested = .ok outputs ↔
      ∃ selected own fetch, select modules requested = .ok selected ∧
        selected.mapM (moduleOutput renderer) = .ok own ∧
        (if selected.any ClientModule.needsFetch then fetchOutput options renderer probe
          else .ok none) = .ok fetch ∧
        outputs = own ++ fetch.toList := by
  rw [outputsOf, bind_eq_ok_iff]
  constructor
  · rintro ⟨selected, hs, h⟩
    obtain ⟨own, ho, h⟩ := bind_eq_ok_iff.mp h
    split at h
    · next hn =>
      obtain ⟨fetch, hf, h⟩ := bind_eq_ok_iff.mp h
      exact ⟨selected, own, fetch, hs, ho, by rw [if_pos hn, hf], (Except.ok.inj h).symm⟩
    · next hn =>
      exact ⟨selected, own, none, hs, ho, if_neg hn, by simpa using (Except.ok.inj h).symm⟩
  · rintro ⟨selected, own, fetch, hs, ho, hf, rfl⟩
    refine ⟨selected, hs, bind_eq_ok_iff.mpr ⟨own, ho, ?_⟩⟩
    split at hf
    · next hn =>
      rw [if_pos hn]
      exact bind_eq_ok_iff.mpr ⟨fetch, hf, rfl⟩
    · next hn =>
      cases hf
      rw [if_neg hn, Option.toList_none, List.append_nil]
      rfl

/-- The shared fetch module is put out unless exactly its bytes are at its path already. -/
theorem fetchOutput_eq_ok_iff {fetch : Option Output} :
    fetchOutput options renderer probe = .ok fetch ↔
      ∃ text present, renderer.renderFetch options.stylingCheck = .ok text ∧
        probe options.fetchPath = .ok present ∧
        fetch = if present = some (utf8 (trim text)) then none
          else some ⟨options.fetchPath, trim text⟩ := by
  rw [fetchOutput, fetchText]
  cases renderer.renderFetch options.stylingCheck with
  | error reason => simp [bind, Except.bind]
  | ok text =>
    cases probe options.fetchPath with
    | error reason => simp [bind, Except.bind]
    | ok present =>
      by_cases hp : present = some (utf8 (trim text))
      · simp [bind, Except.bind, pure, Except.pure, hp, eq_comm]
      · simp [bind, Except.bind, pure, Except.pure, hp, eq_comm]

/-- An output is written to the path of its module. -/
theorem name_of_moduleOutput {output : Output} (h : moduleOutput renderer module = .ok output) :
    output.name = module.output := by
  rw [moduleOutput] at h
  split at h
  · cases h; rfl
  · split at h
    · cases h; rfl
    · cases h

/-- The outputs of the selected modules are written to the output paths of the distinct requests. -/
theorem paths_of_select {files : List File} {own : List Output}
    (hm : modulesOf options files = .ok modules) (hs : select modules requested = .ok selected)
    (ho : selected.mapM (moduleOutput renderer) = .ok own) :
    own.map Output.name = requested.eraseDups.map outputPath := by
  rw [map_of_mapM (fun module output => name_of_moduleOutput) ho, ← names_of_select hs,
    List.map_map]
  apply List.map_congr_left
  intro module hmod
  exact output_of_mem_modulesOf hm (mem_of_select hs hmod)

/-- **The output that a run has for a requested file**: the outputs stand in the order of the first
requests. -/
def outputFor? (requested : List String) (outputs : List Output) (name : String) : Option Output :=
  outputs[requested.eraseDups.idxOf name]?

/-- Every requested file has its output, which is made from its module. -/
theorem exists_outputFor? (h : outputsOf options renderer probe modules requested = .ok outputs)
    (hn : name ∈ requested) :
    ∃ module output, named? modules name = some module ∧
      moduleOutput renderer module = .ok output ∧
      outputFor? requested outputs name = some output := by
  obtain ⟨selected, own, fetch, hs, ho, -, rfl⟩ := outputsOf_eq_ok_iff.mp h
  rw [select_eq_mapM] at hs
  obtain ⟨hl, hsel⟩ := List.forall₂_iff_get.mp (mapM_eq_ok_iff.mp hs)
  obtain ⟨hl', hown⟩ := List.forall₂_iff_get.mp (mapM_eq_ok_iff.mp ho)
  have hi : requested.eraseDups.idxOf name < requested.eraseDups.length :=
    List.idxOf_lt_length_of_mem (List.mem_eraseDups.mpr hn)
  refine ⟨_, _, ?_, hown _ (hl ▸ hi) (hl' ▸ hl ▸ hi), ?_⟩
  · simpa using wanted_eq_ok_iff.mp (hsel _ hi (hl ▸ hi))
  · rw [outputFor?, List.getElem?_append_left (hl' ▸ hl ▸ hi)]
    exact List.getElem?_eq_getElem _

/-! ### A sample

Two files in two directories. The carts of one file map texts to the items of the other, and can
be asked for over HTTP. -/

namespace Sample

/-- The item of a shop. -/
def item : File where
  name := "shop/item.proto"
  package := "shop"
  dependencies := []
  messages := [⟨"Item", [⟨"unit_price", 1, none, .optional, .scalar .int64, none, false⟩], [], [],
    [], false⟩]
  enums := [⟨"Currency", [⟨"EUR", 0⟩]⟩]
  services := []

/-- The entry message of a map from texts to items. -/
def itemsEntry : Message where
  name := "ItemsEntry"
  fields := [⟨"key", 1, none, .optional, .scalar .string, none, false⟩,
    ⟨"value", 2, none, .optional, .named ".shop.Item", none, false⟩]
  nested := []
  enums := []
  choices := []
  isEntry := true

/-- A cart with its items by name, and the service that knows it. -/
def cart : File where
  name := "shop/cart/cart.proto"
  package := "shop.cart"
  dependencies := ["shop/item.proto"]
  messages := [⟨"Cart", [
    ⟨"items", 1, none, .repeated, .named ".shop.cart.Cart.ItemsEntry", none, false⟩,
    ⟨"currency", 2, none, .optional, .named ".shop.Currency", none, false⟩], [itemsEntry], [], [],
    false⟩]
  enums := []
  services := [⟨"Carts", [⟨"Get", ".shop.cart.Cart", "shop.Item", false, false,
    some ⟨.get, "/v1/\x7bcurrency\x7d", none⟩⟩]⟩]

/-- Both files are asked for, the cart first. -/
def request : Request where
  files := [item, cart]
  requested := ["shop/cart/cart.proto", "shop/item.proto"]

/-- A renderer that writes what a module is made from. -/
def labels : Renderer where
  renderModule module := .ok ("// " ++ module.name)
  renderFetch _ := .ok "// fetch"

/-- A probe that finds nothing anywhere. -/
def bare : Probe := fun _ => .ok none

end Sample

end ProtoClient
