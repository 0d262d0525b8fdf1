import ProtoClient.Plugin.Basic
import ProtoClient.Proofs.Endless
import ProtoClient.Proofs.Indexing
import ProtoClient.Proofs.Selection

/-!
# What a run comes to

A run goes through stages: it registers the types of all files, resolves the files one by one,
selects the requested modules, has them rendered, has the shared fetch module rendered if one of
them calls the server, and looks whether that module is there already. The first stage that fails
ends the run with its fault, and nothing is put out. A run that gets through all of them puts out
one text for each requested file, in the order of the first requests, and the shared fetch module
after them if it is needed and not there.

## Main definitions

* `ClientModule.IsBare module`: nothing is declared in the module, and nothing calls the server
* `Output.WrittenFor renderer module output`: the output is the one for the module
* `Request.PutsOut options renderer probe request outputs`: a run that gets through puts these out
* `Request.FailsWith options renderer probe request fault`: the first stage that fails has this
  fault
* `Request.IsEndless request`: the run does not come to an end
* `Request.IsAcyclic request`: no map entry of the run leads back to itself

## Main results

* `modulesOf_eq_fault_iff`, `select_eq_error_iff_of_modulesOf`, `moduleOutput_eq_error_iff`,
  `fetchOutput_eq_error_iff`: where each stage fails
* `generate_outcome`: a run puts out everything, or fails, or does not come to an end, and so says
  the answer to the proto compiler
-/

namespace ProtoClient

open Text

variable {options : Options} {renderer : Renderer} {probe : Probe} {request : Request}
  {registry : Registry} {files : List File} {modules selected : List ClientModule}
  {module : ClientModule} {requested : List String} {output : Output} {outputs : List Output}
  {fault : Fault}

/-! ### Registration and resolution -/

/-- The file in which a declaration is at fault. -/
def Fault.source? : Fault → Option String
  | .unknownType file _ => some file
  | .malformedPath file _ _ _ => some file
  | _ => none

/-- Registration fails with nothing but a type that is declared twice. -/
theorem Registry.exists_duplicateType (h : ofFiles files = .error fault) :
    ∃ name first second, fault = .duplicateType name first second := by
  rw [ofFiles_eq_foldlM] at h
  obtain ⟨-, -, -, -, -, -, -, -, rfl⟩ := Holds.empty.exists_of_foldlM_enter_eq_error h
  exact ⟨_, _, _, rfl⟩

/-- A fault that a type comes to is one of the file that uses it. -/
theorem ComesTo.source?_eq {source : String} {type : FieldType} {levels : Nat}
    {result : Except Fault TypeExpr} (h : ComesTo registry source type levels result)
    (hfault : result = .error fault) : fault.source? = some source := by
  induction h with
  | scalar | wellKnown | enumeration | object | map => cases hfault
  | unknown hb hf =>
    cases hfault
    rfl
  | keyFault _ _ ih => exact ih hfault
  | valueFault _ _ _ _ ih => exact ih hfault

/-- A demand that cannot be resolved is a fault of the file that has it. -/
theorem Demand.source?_of_failure? {source : String} {demand : Demand}
    (h : demand.failure? registry source = some (.fault fault)) : fault.source? = some source := by
  cases demand with
  | known type =>
    obtain ⟨levels, hcomes⟩ := resolveType_eq_fault_iff.mp (failure?_eq_some_iff.mp h)
    exact hcomes.source?_eq rfl
  | template method path =>
    obtain ⟨reason, -, rfl⟩ := Option.map_eq_some_iff.mp (NoResult.map_fault_eq_some_iff.mp h)
    rfl

/-- A file that cannot be resolved is at fault itself. -/
theorem source?_of_ofFile? {file : File}
    (h : ClientModule.ofFile? registry options file = .error (.fault fault)) :
    fault.source? = some file.name := by
  rw [← failure?_eq_some_iff, failure?_ofFile?] at h
  obtain ⟨demand, -, h⟩ := List.exists_of_findSome?_eq_some h
  exact Demand.source?_of_failure? h

/-- **A run has no modules because of a fault** when its types cannot be registered, or else when
one of its files, and none in front of it, cannot be resolved. -/
theorem modulesOf_eq_fault_iff :
    modulesOf options files = .error (.fault fault) ↔
      Registry.ofFiles files = .error fault ∨
        ∃ registry front file back, Registry.ofFiles files = .ok registry ∧
          files = front ++ file :: back ∧
          (∀ earlier ∈ front, ∃ module,
            ClientModule.ofFile? registry options earlier = .ok module) ∧
          ClientModule.ofFile? registry options file = .error (.fault fault) := by
  rw [modulesOf, bind_eq_error_iff]
  simp only [mapM_eq_error_iff, mapError_eq_error_iff, mapError_eq_ok_iff, NoResult.fault.injEq,
    exists_eq_right]
  constructor
  · rintro (h | ⟨registry, hreg, front, file, back, h⟩)
    · exact .inl h
    · exact .inr ⟨registry, front, file, back, hreg, h⟩
  · rintro (h | ⟨registry, front, file, back, hreg, h⟩)
    · exact .inl h
    · exact .inr ⟨registry, hreg, front, file, back, h⟩

/-! ### Selection -/

/-- A requested file has a module when it is one of the files of the run. -/
theorem exists_wanted_iff_of_modulesOf {name : String}
    (hm : modulesOf options files = .ok modules) :
    (∃ module, wanted modules name = .ok module) ↔ name ∈ files.map File.name := by
  rw [exists_wanted_iff, ← names_of_modulesOf hm, List.mem_map]

/-- **Selection fails** at the first of the distinct requests that is for none of the files. -/
theorem select_eq_error_iff_of_modulesOf (hm : modulesOf options files = .ok modules) :
    select modules requested = .error fault ↔
      ∃ front name back, requested.eraseDups = front ++ name :: back ∧
        (∀ earlier ∈ front, earlier ∈ files.map File.name) ∧ name ∉ files.map File.name ∧
        fault = .missingFile name := by
  have hwanted (name : String) :
      wanted modules name = .error fault ↔
        name ∉ files.map File.name ∧ fault = .missingFile name := by
    rw [← exists_wanted_iff_of_modulesOf hm, wanted]
    cases named? modules name <;> simp [eq_comm]
  rw [select_eq_mapM, mapM_eq_error_iff]
  simp only [exists_wanted_iff_of_modulesOf hm, hwanted]

/-! ### Rendering -/

/-- **A module is bare**: it has no object type, no enum and no operation. -/
def ClientModule.IsBare (module : ClientModule) : Prop :=
  module.objects = [] ∧ module.enums = [] ∧ ∀ client ∈ module.clients, client.operations = []

/-- **An output is written for a module**: it goes to the path that belongs to the proto file. For a
bare module its text is fixed, whatever the renderer says; for all others it is the rendered text
without blank ends. -/
structure Output.WrittenFor (renderer : Renderer) (module : ClientModule) (output : Output) :
    Prop where
  name_eq : output.name = outputPath module.name
  bare : module.IsBare → output.content = "export default \x7b\x7d"
  rendered : ¬module.IsBare →
    ∃ text, renderer.renderModule module = .ok text ∧ output.content = trim text

/-- The output of a module is the one written for it. -/
theorem moduleOutput_eq_ok_iff (ho : module.output = outputPath module.name) :
    moduleOutput renderer module = .ok output ↔ output.WrittenFor renderer module := by
  obtain ⟨name, content⟩ := output
  by_cases hb : module.IsBare
  · rw [moduleOutput_of_isEmpty (ClientModule.isEmpty_iff.mpr hb), Except.ok.injEq,
      Output.mk.injEq, ho]
    constructor
    · rintro ⟨rfl, rfl⟩
      exact ⟨rfl, fun _ => rfl, fun hn => absurd hb hn⟩
    · intro h
      exact ⟨h.name_eq.symm, (h.bare hb).symm⟩
  · rw [moduleOutput, if_neg fun he => hb (ClientModule.isEmpty_iff.mp he)]
    constructor
    · intro h
      split at h
      · next text ht =>
        cases h
        exact ⟨ho, fun hb' => absurd hb' hb, fun _ => ⟨text, ht, rfl⟩⟩
      · cases h
    · intro h
      have hname : name = outputPath module.name := h.name_eq
      obtain ⟨text, ht, hcontent⟩ : ∃ text, renderer.renderModule module = .ok text ∧
        content = trim text := h.rendered hb
      rw [ht, ho, hname, hcontent]

/-- A module has no output when it is not bare and the renderer fails at it. -/
theorem moduleOutput_eq_error_iff :
    moduleOutput renderer module = .error fault ↔
      ¬module.IsBare ∧ ∃ reason, renderer.renderModule module = .error reason ∧
        fault = .rendering module.name reason := by
  by_cases hb : module.IsBare
  · rw [moduleOutput_of_isEmpty (ClientModule.isEmpty_iff.mpr hb)]
    simp [hb]
  · rw [moduleOutput, if_neg fun he => hb (ClientModule.isEmpty_iff.mp he)]
    cases renderer.renderModule module <;> simp [hb, eq_comm]

/-! ### The shared fetch module -/

/-- The shared fetch module has no output when it cannot be rendered, or else when the probe
fails. -/
theorem fetchOutput_eq_error_iff :
    fetchOutput options renderer probe = .error fault ↔
      (∃ reason, renderer.renderFetch options.stylingCheck = .error reason ∧
        fault = .fetchRendering options.fetchPath reason) ∨
      ∃ text reason, renderer.renderFetch options.stylingCheck = .ok text ∧
        probe options.fetchPath = .error reason ∧ fault = .probing options.fetchPath reason := by
  rw [fetchOutput, fetchText, bind_eq_error_iff]
  cases renderer.renderFetch options.stylingCheck with
  | error reason => simp [eq_comm]
  | ok text =>
    cases probe options.fetchPath with
    | error reason => simp [eq_comm]
    | ok present =>
      by_cases hp : present = some (utf8 (trim text))
      · simp [hp, pure, Except.pure]
      · simp [hp, pure, Except.pure]

/-- What is left of a run after its modules are resolved fails where the first of its stages
does. -/
theorem outputsOf_eq_error_iff :
    outputsOf options renderer probe modules requested = .error fault ↔
      select modules requested = .error fault ∨
        ∃ selected, select modules requested = .ok selected ∧
          (selected.mapM (moduleOutput renderer) = .error fault ∨
            ∃ own, selected.mapM (moduleOutput renderer) = .ok own ∧
              selected.any ClientModule.needsFetch = true ∧
              fetchOutput options renderer probe = .error fault) := by
  rw [outputsOf, bind_eq_error_iff]
  simp only [bind_eq_error_iff (x := List.mapM _ _)]
  refine or_congr_right (exists_congr fun selected => and_congr_right fun _ =>
    or_congr_right (exists_congr fun own => and_congr_right fun _ => ?_))
  split
  · next hn =>
    rw [bind_eq_error_iff]
    simp [hn, pure, Except.pure]
  · next hn => simp [hn, pure, Except.pure]

/-! ### Runs -/

/-- **The run selects these modules**: all its files have modules, and these are the modules of the
distinct requests, in the order of the first requests. -/
def Request.Selects (options : Options) (request : Request) (selected : List ClientModule) : Prop :=
  ∃ modules, modulesOf options request.files = .ok modules ∧
    List.Forall₂ (fun name module => named? modules name = some module)
      request.requested.eraseDups selected

/-- **What a run puts out** when all its stages succeed: the outputs written for the selected
modules, and the shared fetch module behind them if one of these calls the server and exactly its
bytes are not there already. -/
inductive Request.PutsOut (options : Options) (renderer : Renderer) (probe : Probe)
    (request : Request) : List Output → Prop
  /-- No selected module calls the server. -/
  | uncalled {selected : List ClientModule} {own : List Output}
    (hs : request.Selects options selected)
    (ho : List.Forall₂ (Output.WrittenFor renderer) selected own)
    (hn : ∀ module ∈ selected, module.needsFetch = false) :
    PutsOut options renderer probe request own
  /-- The shared fetch module is there already. -/
  | present {selected : List ClientModule} {own : List Output} {text : String}
    (hs : request.Selects options selected)
    (ho : List.Forall₂ (Output.WrittenFor renderer) selected own)
    (hn : ∃ module ∈ selected, module.needsFetch = true)
    (ht : renderer.renderFetch options.stylingCheck = .ok text)
    (hp : probe options.fetchPath = .ok (some (utf8 (trim text)))) :
    PutsOut options renderer probe request own
  /-- The shared fetch module is not there, or something else is. -/
  | missing {selected : List ClientModule} {own : List Output} {text : String}
    {found : Option (List UInt8)} (hs : request.Selects options selected)
    (ho : List.Forall₂ (Output.WrittenFor renderer) selected own)
    (hn : ∃ module ∈ selected, module.needsFetch = true)
    (ht : renderer.renderFetch options.stylingCheck = .ok text)
    (hp : probe options.fetchPath = .ok found) (hne : found ≠ some (utf8 (trim text))) :
    PutsOut options renderer probe request (own ++ [⟨options.fetchPath, trim text⟩])

/-- **The fault of a run**: that of the first stage that fails, and within a stage the first one.
Only a run that selects a module which calls the server gets as far as the last two. -/
inductive Request.FailsWith (options : Options) (renderer : Renderer) (probe : Probe)
    (request : Request) : Fault → Prop
  /-- A type is declared twice. -/
  | registering {name first second : String}
    (h : Registry.ofFiles request.files = .error (.duplicateType name first second)) :
    FailsWith options renderer probe request (.duplicateType name first second)
  /-- A file cannot be resolved, while those in front of it can. -/
  | resolving {registry : Registry} {front back : List File} {file : File} {fault : Fault}
    (hreg : Registry.ofFiles request.files = .ok registry)
    (hf : request.files = front ++ file :: back)
    (hfront : ∀ earlier ∈ front, ∃ module,
      ClientModule.ofFile? registry options earlier = .ok module)
    (h : ClientModule.ofFile? registry options file = .error (.fault fault))
    (hsource : fault.source? = some file.name) :
    FailsWith options renderer probe request fault
  /-- A requested file is missing, while those requested before it are not. -/
  | selecting {modules : List ClientModule} {front back : List String} {name : String}
    (hm : modulesOf options request.files = .ok modules)
    (hr : request.requested.eraseDups = front ++ name :: back)
    (hfront : ∀ earlier ∈ front, earlier ∈ request.files.map File.name)
    (h : name ∉ request.files.map File.name) :
    FailsWith options renderer probe request (.missingFile name)
  /-- The renderer fails at a module, while those in front of it are written. -/
  | rendering {selected front back : List ClientModule} {module : ClientModule} {reason : String}
    (hs : request.Selects options selected) (hsel : selected = front ++ module :: back)
    (hfront : ∀ earlier ∈ front, ∃ output : Output, output.WrittenFor renderer earlier)
    (hb : ¬module.IsBare) (h : renderer.renderModule module = .error reason) :
    FailsWith options renderer probe request (.rendering module.name reason)
  /-- The renderer fails at the shared fetch module, while all others are written. -/
  | fetchRendering {selected : List ClientModule} {own : List Output} {reason : String}
    (hs : request.Selects options selected)
    (ho : List.Forall₂ (Output.WrittenFor renderer) selected own)
    (hn : ∃ module ∈ selected, module.needsFetch = true)
    (h : renderer.renderFetch options.stylingCheck = .error reason) :
    FailsWith options renderer probe request (.fetchRendering options.fetchPath reason)
  /-- The probe fails, while everything is written. -/
  | probing {selected : List ClientModule} {own : List Output} {text reason : String}
    (hs : request.Selects options selected)
    (ho : List.Forall₂ (Output.WrittenFor renderer) selected own)
    (hn : ∃ module ∈ selected, module.needsFetch = true)
    (ht : renderer.renderFetch options.stylingCheck = .ok text)
    (h : probe options.fetchPath = .error reason) :
    FailsWith options renderer probe request (.probing options.fetchPath reason)

/-- **The run does not come to an end**: the types of all files are registered, and the first demand
that is not met, of the first file that has one, is for a type that comes to nothing. -/
inductive Request.IsEndless (request : Request) : Prop
  | intro {registry : Registry} {front back : List File} {file : File} {before after : List Demand}
    {demand : Demand} (hreg : Registry.ofFiles request.files = .ok registry)
    (hf : request.files = front ++ file :: back)
    (hfront : ∀ earlier ∈ front, ∀ demand ∈ earlier.demands, demand.IsMet registry)
    (hd : file.demands = before ++ demand :: after)
    (hbefore : ∀ earlier ∈ before, earlier.IsMet registry)
    (h : demand.IsEndless registry file.name)

/-- **No map entry of the run leads back to itself.** -/
def Request.IsAcyclic (request : Request) : Prop :=
  ∀ registry, Registry.ofFiles request.files = .ok registry → registry.Acyclic

/-- A selected module is written to the path that belongs to its proto file. -/
theorem output_of_mem_select (hm : modulesOf options files = .ok modules)
    (hs : select modules requested = .ok selected) (hmod : module ∈ selected) :
    module.output = outputPath module.name :=
  output_of_mem_modulesOf hm (mem_of_select hs hmod)

/-- The outputs of selected modules are those written for them. -/
theorem mapM_moduleOutput_eq_ok_iff
    (ho : ∀ module ∈ selected, module.output = outputPath module.name) :
    selected.mapM (moduleOutput renderer) = .ok outputs ↔
      List.Forall₂ (Output.WrittenFor renderer) selected outputs := by
  rw [mapM_eq_ok_iff, List.forall₂_iff_get, List.forall₂_iff_get]
  refine and_congr_right fun _ => forall_congr' fun i => forall_congr' fun hi =>
    forall_congr' fun hi' => ?_
  exact moduleOutput_eq_ok_iff (ho _ (List.get_mem _ _))

/-- The run selects modules when all its files have modules and those of the distinct requests are
selected. -/
theorem Request.selects_iff :
    request.Selects options selected ↔ ∃ modules, modulesOf options request.files = .ok modules ∧
      select modules request.requested = .ok selected := by
  simp only [Selects, select_eq_ok_iff]

/-- A run that selects modules selects what its files and its requests have selected, and the
outputs of these are those written for them. -/
theorem Request.Selects.exists_modules (h : request.Selects options selected) :
    ∃ modules, modulesOf options request.files = .ok modules ∧
      select modules request.requested = .ok selected ∧
      ∀ module ∈ selected, module.output = outputPath module.name := by
  obtain ⟨modules, hm, hs⟩ := selects_iff.mp h
  exact ⟨modules, hm, hs, fun module => output_of_mem_select hm hs⟩

/-- A run has outputs when all its stages succeed, and it then puts these out. -/
theorem generate_eq_ok_iff :
    generate options renderer probe request = .ok outputs ↔
      request.PutsOut options renderer probe outputs := by
  rw [generate_eq_ok]
  simp only [outputsOf_eq_ok_iff]
  constructor
  · rintro ⟨modules, hm, selected, own, fetch, hs, ho, hf, rfl⟩
    have hsel := Request.selects_iff.mpr ⟨modules, hm, hs⟩
    have hown := (mapM_moduleOutput_eq_ok_iff fun module => output_of_mem_select hm hs).mp ho
    split at hf
    · next hn =>
      obtain ⟨text, found, ht, hp, rfl⟩ := fetchOutput_eq_ok_iff.mp hf
      by_cases hfound : found = some (utf8 (trim text))
      · rw [if_pos hfound, Option.toList_none, List.append_nil]
        exact .present hsel hown (List.any_eq_true.mp hn) ht (hfound ▸ hp)
      · rw [if_neg hfound, Option.toList_some]
        exact .missing hsel hown (List.any_eq_true.mp hn) ht hp hfound
    · next hn =>
      cases hf
      rw [Option.toList_none, List.append_nil]
      exact .uncalled hsel hown (by simpa using hn)
  · intro h
    cases h with
    | uncalled hs ho hn =>
      obtain ⟨modules, hm, hs, hpaths⟩ := hs.exists_modules
      refine ⟨modules, hm, _, _, none, hs, (mapM_moduleOutput_eq_ok_iff hpaths).mpr ho, ?_, ?_⟩
      · rw [if_neg (by simpa using hn)]
      · rw [Option.toList_none, List.append_nil]
    | present hs ho hn ht hp =>
      obtain ⟨modules, hm, hs, hpaths⟩ := hs.exists_modules
      refine ⟨modules, hm, _, _, none, hs, (mapM_moduleOutput_eq_ok_iff hpaths).mpr ho, ?_, ?_⟩
      · rw [if_pos (List.any_eq_true.mpr hn)]
        exact fetchOutput_eq_ok_iff.mpr ⟨_, _, ht, hp, by rw [if_pos rfl]⟩
      · rw [Option.toList_none, List.append_nil]
    | missing hs ho hn ht hp hne =>
      obtain ⟨modules, hm, hs, hpaths⟩ := hs.exists_modules
      refine ⟨modules, hm, _, _, some _, hs, (mapM_moduleOutput_eq_ok_iff hpaths).mpr ho, ?_, rfl⟩
      rw [if_pos (List.any_eq_true.mpr hn)]
      exact fetchOutput_eq_ok_iff.mpr ⟨_, _, ht, hp, by rw [if_neg hne]⟩

/-- A run has a fault when one of its stages fails, and it is that of the first one. -/
theorem generate_eq_fault_iff :
    generate options renderer probe request = .error (.fault fault) ↔
      request.FailsWith options renderer probe fault := by
  rw [generate, bind_eq_error_iff]
  simp only [mapError_eq_error_iff, NoResult.fault.injEq, exists_eq_right, outputsOf_eq_error_iff]
  constructor
  · rintro (h | ⟨modules, hm, h | ⟨selected, hs, h⟩⟩)
    · rcases modulesOf_eq_fault_iff.mp h with h | ⟨registry, front, file, back, hreg, hf, hfront, h⟩
      · obtain ⟨name, first, second, rfl⟩ := Registry.exists_duplicateType h
        exact .registering h
      · exact .resolving hreg hf hfront h (source?_of_ofFile? h)
    · obtain ⟨front, name, back, hr, hfront, hn, rfl⟩ := (select_eq_error_iff_of_modulesOf hm).mp h
      exact .selecting hm hr hfront hn
    · have hsel := Request.selects_iff.mpr ⟨modules, hm, hs⟩
      have hpaths : ∀ module ∈ selected, module.output = outputPath module.name :=
        fun module => output_of_mem_select hm hs
      rcases h with h | ⟨own, ho, hn, h⟩
      · obtain ⟨front, module, back, rfl, hfront, h⟩ := mapM_eq_error_iff.mp h
        obtain ⟨hb, reason, hreason, rfl⟩ := moduleOutput_eq_error_iff.mp h
        refine .rendering hsel rfl (fun earlier he => ?_) hb hreason
        obtain ⟨output, hout⟩ := hfront earlier he
        exact ⟨output, (moduleOutput_eq_ok_iff
          (hpaths earlier (List.mem_append_left _ he))).mp hout⟩
      · have hown := (mapM_moduleOutput_eq_ok_iff hpaths).mp ho
        rw [List.any_eq_true] at hn
        rcases fetchOutput_eq_error_iff.mp h with ⟨reason, hr, rfl⟩ | ⟨text, reason, ht, hp, rfl⟩
        · exact .fetchRendering hsel hown hn hr
        · exact .probing hsel hown hn ht hp
  · intro h
    cases h with
    | registering h => exact .inl (modulesOf_eq_fault_iff.mpr (.inl h))
    | resolving hreg hf hfront h =>
      exact .inl (modulesOf_eq_fault_iff.mpr (.inr ⟨_, _, _, _, hreg, hf, hfront, h⟩))
    | selecting hm hr hfront h =>
      exact .inr ⟨_, hm, .inl ((select_eq_error_iff_of_modulesOf hm).mpr
        ⟨_, _, _, hr, hfront, h, rfl⟩)⟩
    | rendering hs hsel hfront hb h =>
      obtain ⟨modules, hm, hs, hpaths⟩ := hs.exists_modules
      subst hsel
      refine .inr ⟨modules, hm, .inr ⟨_, hs, .inl (mapM_eq_error_iff.mpr ⟨_, _, _, rfl, ?_,
        moduleOutput_eq_error_iff.mpr ⟨hb, _, h, rfl⟩⟩)⟩⟩
      intro earlier he
      obtain ⟨output, hout⟩ := hfront earlier he
      exact ⟨output, (moduleOutput_eq_ok_iff
        (hpaths earlier (List.mem_append_left _ he))).mpr hout⟩
    | fetchRendering hs ho hn h =>
      obtain ⟨modules, hm, hs, hpaths⟩ := hs.exists_modules
      exact .inr ⟨modules, hm, .inr ⟨_, hs, .inr ⟨_, (mapM_moduleOutput_eq_ok_iff hpaths).mpr ho,
        List.any_eq_true.mpr hn, fetchOutput_eq_error_iff.mpr (.inl ⟨_, h, rfl⟩)⟩⟩⟩
    | probing hs ho hn ht h =>
      obtain ⟨modules, hm, hs, hpaths⟩ := hs.exists_modules
      exact .inr ⟨modules, hm, .inr ⟨_, hs, .inr ⟨_, (mapM_moduleOutput_eq_ok_iff hpaths).mpr ho,
        List.any_eq_true.mpr hn, fetchOutput_eq_error_iff.mpr (.inr ⟨_, _, ht, h, rfl⟩)⟩⟩⟩

/-- A run comes to no end when the resolution of its files does not. -/
theorem generate_eq_endless_iff :
    generate options renderer probe request = .error .endless ↔ request.IsEndless := by
  rw [generate, bind_eq_error_iff]
  simp only [mapError_eq_error_iff, reduceCtorEq, and_false, exists_false, or_false]
  rw [modulesOf_eq_endless_iff]
  constructor
  · rintro ⟨registry, front, file, back, before, demand, after, hreg, hf, hfront, hd, hbefore, h⟩
    exact ⟨hreg, hf, hfront, hd, hbefore, h⟩
  · rintro ⟨hreg, hf, hfront, hd, hbefore, h⟩
    exact ⟨_, _, _, _, _, _, _, hreg, hf, hfront, hd, hbefore, h⟩

/-- Where no map entry leads back to itself, every run comes to an end. -/
theorem Request.IsAcyclic.not_isEndless (h : request.IsAcyclic) : ¬request.IsEndless := by
  rintro ⟨hreg, -, -, -, -, ⟨hnothing⟩⟩
  obtain ⟨levels, -, outcome, hcomes, -⟩ := ((h _ hreg).unwinds _).exists_comesTo _
  exact hnothing levels outcome hcomes

/-- **A run puts out everything, or nothing but a fault, or it does not come to an end**, and which
of these it is and what it comes to is settled by its stages in order. It comes to an end whenever
no map entry leads back to itself. The answer to the proto compiler has the outputs as its files, or
no file and the wording of the fault as its error, and of a run without end there is no answer. -/
theorem generate_outcome (renderer : Renderer) (probe : Probe) (request : Request) :
    (∀ options,
      (∀ outputs, generate options renderer probe request = .ok outputs ↔
        request.PutsOut options renderer probe outputs) ∧
      (∀ fault, generate options renderer probe request = .error (.fault fault) ↔
        request.FailsWith options renderer probe fault) ∧
      (generate options renderer probe request = .error .endless ↔ request.IsEndless)) ∧
    (request.IsAcyclic → ¬request.IsEndless) ∧
    ∀ parameters,
      (∀ outputs, request.PutsOut (.ofParameters parameters) renderer probe outputs →
        PluginRequest.answer? renderer probe ⟨request, parameters⟩ = some
          ⟨none, some 1, outputs.map fun output => ⟨some output.name, some output.content⟩⟩) ∧
      (∀ fault, request.FailsWith (.ofParameters parameters) renderer probe fault →
        PluginRequest.answer? renderer probe ⟨request, parameters⟩ = some
          ⟨some fault.message, some 1, []⟩) ∧
      (request.IsEndless → PluginRequest.answer? renderer probe ⟨request, parameters⟩ = none) := by
  refine ⟨fun options => ⟨fun outputs => generate_eq_ok_iff, fun fault => generate_eq_fault_iff,
    generate_eq_endless_iff⟩, Request.IsAcyclic.not_isEndless,
    fun parameters => ⟨fun outputs h => ?_, fun fault h => ?_, fun h => ?_⟩⟩
  · have hrun := generate_eq_ok_iff.mpr h
    rw [PluginRequest.answer?, PluginRequest.options, hrun]
    rfl
  · exact PluginRequest.answer?_of_fault (generate_eq_fault_iff.mpr h)
  · have hrun : generate (.ofParameters parameters) renderer probe request = .error .endless :=
      generate_eq_endless_iff.mpr h
    rw [PluginRequest.answer?, PluginRequest.options, hrun]

/-- What the sample puts out. -/
def Sample.texts : List Output :=
  [⟨"shop/cart/cart.pb.ts", "// shop/cart/cart.proto"⟩, ⟨"shop/item.pb.ts", "// shop/item.proto"⟩,
    ⟨"fetch.pb.ts", "// fetch"⟩]

/-- The sample has no map entry that leads back to itself, and puts out its two modules and the
shared fetch module. -/
theorem generate_outcome_sample :
    Sample.request.IsAcyclic ∧ ¬Sample.request.IsEndless ∧
      Sample.request.PutsOut {} Sample.labels Sample.bare Sample.texts ∧
      PluginRequest.answer? Sample.labels Sample.bare ⟨Sample.request, .ofText ""⟩ = some
        ⟨none, some 1, Sample.texts.map fun output => ⟨some output.name, some output.content⟩⟩ := by
  have hacyclic : Sample.request.IsAcyclic := Registry.acyclic_of_map_isFlat (by decide +kernel)
  obtain ⟨hruns, hends, hanswers⟩ := generate_outcome Sample.labels Sample.bare Sample.request
  have hputs : Sample.request.PutsOut {} Sample.labels Sample.bare Sample.texts :=
    ((hruns {}).1 _).mp (by decide +kernel)
  exact ⟨hacyclic, hends hacyclic, hputs, (hanswers (.ofText "")).1 _ hputs⟩

/-- A map entry whose value is the entry itself, and a message with such a map. -/
def Sample.loop : File where
  name := "loop.proto"
  package := "loop"
  dependencies := []
  messages := [⟨"E", [⟨"key", 1, none, .optional, .scalar .string, none, false⟩,
      ⟨"value", 2, none, .optional, .named ".loop.E", none, false⟩], [], [], [], true⟩,
    ⟨"M", [⟨"entries", 1, none, .repeated, .named ".loop.E", none, false⟩], [], [], [], false⟩]
  enums := []
  services := []

/-- The run on such a map has neither outputs nor a fault, and its request has no answer: the type
of the field is followed to any depth without an end. -/
theorem generate_loop :
    generate {} Sample.labels Sample.bare ⟨[Sample.loop], ["loop.proto"]⟩ = .error .endless ∧
      PluginRequest.answer? Sample.labels Sample.bare
        ⟨⟨[Sample.loop], ["loop.proto"]⟩, .ofText ""⟩ = none ∧
      ∃ registry, Registry.ofFiles [Sample.loop] = .ok registry ∧
        ∀ depth, resolveWithin registry "loop.proto" depth (.named ".loop.E") =
          .error .endless := by
  have hresolve : (Registry.ofFiles [Sample.loop]).map
      (resolveType · "loop.proto" (.named ".loop.E")) = .ok (.error .endless) := by decide +kernel
  obtain ⟨registry, hreg, hendless⟩ := map_eq_ok_iff.mp hresolve
  exact ⟨by decide +kernel, by decide +kernel, registry, hreg,
    resolveType_eq_endless_iff_forall.mp hendless⟩

end ProtoClient
