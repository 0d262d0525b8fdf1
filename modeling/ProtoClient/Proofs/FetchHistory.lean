import ProtoClient.Proofs.Generation
import ProtoClient.Workspace

/-!
# The shared fetch module over a history of runs

Runs follow each other on one disk, and each sees what the earlier ones have written. All that a run
looks at is the path of the shared fetch module: whatever else it puts out does not depend on the
disk. The first run that needs the shared fetch module leaves it on the disk, if it is not there
already, and as long as no module is written to its path it stays there. No later run puts it out
again.

## Main definitions

* `Request.prepare`: a run up to its look at the disk
* `Disk.run`, `Disk.after`: a run on a disk, and the disk after it
* `history`: the runs of requests that follow each other on a disk
* `FetchOnce`: how often the shared fetch module is put out over a history

## Main results

* `generate_probe_eq`: a run on a disk is one up to its look at it, and what is not there yet
* `holdsFetch_after_iff`: what one run does to the shared fetch module on the disk
* `fetchOnce_history`: over a history the shared fetch module is put out once
* `Workspace.generateAndSave?_of_disk`: runs of a workspace on a disk are those of a history
-/

namespace ProtoClient

open Text

variable {options : Options} {renderer : Renderer} {request : Request} {requests : List Request}
  {disk other : Disk} {own outputs : List Output} {text : String} {needed : Option String}

/-! ### One run -/

/-- What is left of a run after its modules are resolved, up to its look at the disk. -/
def preparedOf (options : Options) (renderer : Renderer) (modules : List ClientModule)
    (requested : List String) : Except Fault (List Output × Option String) := do
  let selected ← select modules requested
  let own ← selected.mapM (moduleOutput renderer)
  if selected.any ClientModule.needsFetch then
    let text ← fetchText options renderer
    return (own, some text)
  else return (own, none)

/-- **A run up to its look at the disk**: the outputs for the selected modules, and the text of the
shared fetch module if one of them needs it. -/
def Request.prepare (options : Options) (renderer : Renderer) (request : Request) :
    Except NoResult (List Output × Option String) := do
  let modules ← modulesOf options request.files
  (preparedOf options renderer modules request.requested).mapError .fault

/-- The output for a shared fetch module that is needed and not on the disk already. -/
def Disk.missing (disk : Disk) (options : Options) : Option String → List Output
  | some text =>
    if disk.get? options.fetchPath = some (utf8 text) then [] else [⟨options.fetchPath, text⟩]
  | none => []

@[simp] theorem Disk.missing_none : disk.missing options none = [] := rfl

theorem Disk.missing_some : disk.missing options (some text) =
    if disk.get? options.fetchPath = some (utf8 text) then []
    else [⟨options.fetchPath, text⟩] := rfl

/-- Whatever is missing is the shared fetch module. -/
theorem Disk.eq_of_mem_missing {output : Output} (h : output ∈ disk.missing options needed) :
    ∃ text, needed = some text ∧ output = ⟨options.fetchPath, text⟩ := by
  cases needed with
  | none => cases h
  | some text =>
    rw [missing_some] at h
    split at h
    · cases h
    · exact ⟨text, rfl, List.mem_singleton.mp h⟩

/-- What is left of a run on a disk is what there is up to its look at it, and what is not there
yet. -/
theorem outputsOf_probe_eq (options : Options) (renderer : Renderer) (disk : Disk)
    (modules : List ClientModule) (requested : List String) :
    outputsOf options renderer disk.probe modules requested =
      (preparedOf options renderer modules requested).map fun (own, needed) =>
        own ++ disk.missing options needed := by
  unfold outputsOf preparedOf
  cases hs : select modules requested with
  | error fault => simp [bind, Except.bind, Except.map]
  | ok selected =>
    cases ho : selected.mapM (moduleOutput renderer) with
    | error fault => simp [bind, Except.bind, Except.map, ho]
    | ok own =>
      by_cases hn : selected.any ClientModule.needsFetch = true
      · cases ht : fetchText options renderer with
        | error fault => simp [bind, Except.bind, Except.map, ho, hn, ht, fetchOutput]
        | ok text =>
          by_cases hp : disk.get? options.fetchPath = some (utf8 text)
          · simp [bind, Except.bind, Except.map, pure, Except.pure, ho, hn, ht, hp, fetchOutput,
              Disk.probe, Disk.missing]
          · simp [bind, Except.bind, Except.map, pure, Except.pure, ho, hn, ht, hp, fetchOutput,
              Disk.probe, Disk.missing]
      · simp [bind, Except.bind, Except.map, pure, Except.pure, ho, hn, Disk.missing]

/-- **A run on a disk is one up to its look at it, and what is not there yet.** -/
theorem generate_probe_eq (options : Options) (renderer : Renderer) (disk : Disk)
    (request : Request) :
    generate options renderer disk.probe request =
      (request.prepare options renderer).map fun (own, needed) =>
        own ++ disk.missing options needed := by
  unfold generate Request.prepare
  cases modulesOf options request.files with
  | error reason => rfl
  | ok modules =>
    show (outputsOf options renderer disk.probe modules request.requested).mapError
        NoResult.fault =
      ((preparedOf options renderer modules request.requested).mapError NoResult.fault).map _
    rw [outputsOf_probe_eq]
    cases preparedOf options renderer modules request.requested <;> rfl

/-- **The run selects a callable module**: one that needs the shared fetch module. -/
def Request.SelectsCallable (options : Options) (request : Request) : Prop :=
  ∃ modules selected, modulesOf options request.files = .ok modules ∧
    select modules request.requested = .ok selected ∧
    selected.any ClientModule.needsFetch = true

/-- **The run keeps off the shared fetch module**: no selected module is written to its path. -/
def Request.KeepsOffFetch (options : Options) (request : Request) : Prop :=
  ∀ modules selected, modulesOf options request.files = .ok modules →
    select modules request.requested = .ok selected →
    ∀ module ∈ selected, module.output ≠ options.fetchPath

/-- What a run has made ready: the outputs for its selected modules, and the text of the shared
fetch module when one of these needs it. -/
theorem Request.prepare_eq_ok_iff :
    request.prepare options renderer = .ok (own, needed) ↔
      ∃ modules selected, modulesOf options request.files = .ok modules ∧
        select modules request.requested = .ok selected ∧
        selected.mapM (moduleOutput renderer) = .ok own ∧
        ((selected.any ClientModule.needsFetch = true ∧
            ∃ text, fetchText options renderer = .ok text ∧ needed = some text) ∨
          (selected.any ClientModule.needsFetch = false ∧ needed = none)) := by
  rw [prepare, bind_eq_ok_iff]
  simp only [mapError_eq_ok_iff]
  constructor
  · rintro ⟨modules, hm, h⟩
    obtain ⟨selected, hs, h⟩ := bind_eq_ok_iff.mp h
    obtain ⟨made, ho, h⟩ := bind_eq_ok_iff.mp h
    split at h
    · next hn =>
      obtain ⟨text, ht, h⟩ := bind_eq_ok_iff.mp h
      cases h
      exact ⟨modules, selected, hm, hs, ho, .inl ⟨hn, text, ht, rfl⟩⟩
    · next hn =>
      cases h
      exact ⟨modules, selected, hm, hs, ho, .inr ⟨by simpa using hn, rfl⟩⟩
  · rintro ⟨modules, selected, hm, hs, ho, h⟩
    refine ⟨modules, hm, bind_eq_ok_iff.mpr ⟨selected, hs, bind_eq_ok_iff.mpr ⟨own, ho, ?_⟩⟩⟩
    rcases h with ⟨hn, text, ht, rfl⟩ | ⟨hn, rfl⟩
    · rw [if_pos hn]
      exact bind_eq_ok_iff.mpr ⟨text, ht, rfl⟩
    · rw [if_neg (by simp [hn])]
      rfl

/-- A run that is ready needs the shared fetch module when it selects a callable module. -/
theorem Request.isSome_needed_iff (h : request.prepare options renderer = .ok (own, needed)) :
    needed.isSome = true ↔ request.SelectsCallable options := by
  obtain ⟨modules, selected, hm, hs, -, hn⟩ := prepare_eq_ok_iff.mp h
  constructor
  · intro hsome
    rcases hn with ⟨hn, -⟩ | ⟨-, rfl⟩
    · exact ⟨modules, selected, hm, hs, hn⟩
    · cases hsome
  · rintro ⟨modules', selected', hm', hs', hn'⟩
    cases hm.symm.trans hm'
    cases hs.symm.trans hs'
    rcases hn with ⟨-, text, -, rfl⟩ | ⟨hn, -⟩
    · rfl
    · rw [hn] at hn'
      cases hn'

theorem fetchText_eq_ok_iff :
    fetchText options renderer = .ok text ↔
      ∃ rendered, renderer.renderFetch options.stylingCheck = .ok rendered ∧
        text = trim rendered := by
  unfold fetchText
  cases renderer.renderFetch options.stylingCheck with
  | error reason => simp
  | ok rendered => simp [eq_comm]

/-- The text that a run has made ready is that of the shared fetch module. -/
theorem Request.fetchText_of_prepare
    (h : request.prepare options renderer = .ok (own, some text)) :
    fetchText options renderer = .ok text := by
  obtain ⟨modules, selected, -, -, -, hn⟩ := prepare_eq_ok_iff.mp h
  rcases hn with ⟨-, made, ht, hmade⟩ | ⟨-, hnone⟩
  · cases hmade
    exact ht
  · cases hnone

/-- A run that keeps off the shared fetch module has its own outputs elsewhere. -/
theorem Request.KeepsOffFetch.notMem (hk : request.KeepsOffFetch options)
    (h : request.prepare options renderer = .ok (own, needed)) :
    options.fetchPath ∉ own.map Output.name := by
  obtain ⟨modules, selected, hm, hs, ho, -⟩ := prepare_eq_ok_iff.mp h
  intro hmem
  obtain ⟨output, hout, hname⟩ := List.mem_map.mp hmem
  obtain ⟨module, hmod, hmade⟩ := exists_of_mem_of_mapM ho hout
  exact hk modules selected hm hs module hmod (name_of_moduleOutput hmade ▸ hname)

/-- A run keeps off the shared fetch module when no requested name has its path. -/
theorem Request.keepsOffFetch_of_requested
    (h : ∀ name ∈ request.requested, outputPath name ≠ options.fetchPath) :
    request.KeepsOffFetch options := by
  intro modules selected hm hs module hmod
  rw [output_of_mem_modulesOf hm (mem_of_select hs hmod)]
  apply h
  rw [← List.mem_eraseDups, ← names_of_select hs]
  exact List.mem_map_of_mem hmod

/-! ### Runs on a disk -/

/-- **A run**: what was requested, and what came of it. -/
structure Run where
  request : Request
  outcome : Except NoResult (List Output)

namespace Run

/-- The run put out the shared fetch module. -/
def PutsOutFetch (options : Options) (run : Run) : Prop :=
  ∃ outputs, run.outcome = .ok outputs ∧ options.fetchPath ∈ outputs.map Output.name

/-- The run succeeded and selected a callable module. -/
def NeedsFetch (options : Options) (run : Run) : Prop :=
  run.outcome.isOk = true ∧ run.request.SelectsCallable options

end Run

/-- What a run put out besides the shared fetch module, or why it has no result. -/
def apartFromFetch (options : Options) (outcome : Except NoResult (List Output)) :
    Except NoResult (List Output) :=
  outcome.map fun outputs => outputs.filter (·.name ≠ options.fetchPath)

namespace Disk

/-- **A run on a disk.** -/
def run (options : Options) (renderer : Renderer) (disk : Disk) (request : Request) : Run :=
  ⟨request, generate options renderer disk.probe request⟩

/-- **The disk after a run**: a run without a result writes nothing. -/
def after (options : Options) (renderer : Renderer) (disk : Disk) (request : Request) : Disk :=
  match generate options renderer disk.probe request with
  | .ok outputs => disk.save outputs
  | .error _ => disk

/-- **The disk holds the shared fetch module**: exactly its bytes are at its path. -/
def HoldsFetch (options : Options) (renderer : Renderer) (disk : Disk) : Prop :=
  ∃ text, fetchText options renderer = .ok text ∧
    disk.get? options.fetchPath = some (utf8 text)

/-- What is not written to stays as it is. -/
theorem get?_save_of_notMem {path : String} (h : path ∉ outputs.map Output.name) :
    (disk.save outputs).get? path = disk.get? path := by
  induction outputs generalizing disk with
  | nil => rfl
  | cons output rest ih =>
    rw [List.map_cons, List.mem_cons, not_or] at h
    rw [save, List.foldl_cons]
    show ((disk.write output).save rest).get? path = disk.get? path
    rw [ih h.2, write, NameMap.get?_insert, if_neg h.1]

/-- What is written last is there. -/
theorem get?_save_concat (disk : Disk) (outputs : List Output) (path text : String) :
    (disk.save (outputs ++ [⟨path, text⟩])).get? path = some (utf8 text) := by
  rw [save, List.foldl_append]
  show ((disk.save outputs).write ⟨path, text⟩).get? path = _
  rw [write, NameMap.get?_insert, if_pos rfl]

end Disk

section Step

variable (hk : request.KeepsOffFetch options)

/-- A run on a disk needs the shared fetch module when it has made its text ready. -/
theorem needsFetch_run_iff :
    (disk.run options renderer request).NeedsFetch options ↔
      ∃ own text, request.prepare options renderer = .ok (own, some text) := by
  unfold Run.NeedsFetch Disk.run
  rw [generate_probe_eq]
  cases hp : request.prepare options renderer with
  | error fault => simp [Except.map, Except.isOk, Except.toBool]
  | ok made =>
    obtain ⟨own, needed⟩ := made
    have hiff := Request.isSome_needed_iff hp
    simp only [Except.map, Except.isOk, Except.toBool, true_and, Except.ok.injEq, Prod.mk.injEq]
    rw [← hiff, Option.isSome_iff_exists]
    constructor
    · rintro ⟨text, rfl⟩
      exact ⟨own, text, rfl, rfl⟩
    · rintro ⟨_, text, -, rfl⟩
      exact ⟨text, rfl⟩

include hk

/-- **A run puts out the shared fetch module** when it needs it and the disk does not hold it. -/
theorem putsOutFetch_run_iff :
    (disk.run options renderer request).PutsOutFetch options ↔
      (disk.run options renderer request).NeedsFetch options ∧
        ¬disk.HoldsFetch options renderer := by
  rw [needsFetch_run_iff]
  unfold Run.PutsOutFetch Disk.run
  rw [generate_probe_eq]
  constructor
  · rintro ⟨outputs, hout, hmem⟩
    obtain ⟨⟨own, needed⟩, hp, rfl⟩ := map_eq_ok_iff.mp hout
    rw [List.map_append, List.mem_append] at hmem
    have hmem := hmem.resolve_left (hk.notMem hp)
    cases needed with
    | none => cases hmem
    | some text =>
      refine ⟨⟨own, text, hp⟩, ?_⟩
      rintro ⟨held, hheld, hget⟩
      cases (Request.fetchText_of_prepare hp).symm.trans hheld
      simp only [Disk.missing_some, if_pos hget] at hmem
      cases hmem
  · rintro ⟨⟨own, text, hp⟩, hnot⟩
    have hget : disk.get? options.fetchPath ≠ some (utf8 text) :=
      fun hget => hnot ⟨text, Request.fetchText_of_prepare hp, hget⟩
    refine ⟨_, map_eq_ok_iff.mpr ⟨_, hp, rfl⟩, ?_⟩
    show options.fetchPath ∈ (own ++ disk.missing options (some text)).map Output.name
    rw [Disk.missing_some, if_neg hget, List.map_append, List.mem_append]
    right
    simp

/-- **What one run does to the shared fetch module on the disk**: it stays there, and it is there
after a run that needs it. -/
theorem holdsFetch_after_iff :
    (disk.after options renderer request).HoldsFetch options renderer ↔
      disk.HoldsFetch options renderer ∨
        (disk.run options renderer request).NeedsFetch options := by
  rw [needsFetch_run_iff]
  unfold Disk.after
  rw [generate_probe_eq]
  cases hp : request.prepare options renderer with
  | error fault => simp [Except.map]
  | ok made =>
    obtain ⟨own, needed⟩ := made
    have hown := hk.notMem hp
    cases needed with
    | none => simp [Except.map, Disk.HoldsFetch, Disk.get?_save_of_notMem hown]
    | some text =>
      have htext := Request.fetchText_of_prepare hp
      have hafter : (disk.save (own ++ disk.missing options (some text))).get?
          options.fetchPath = some (utf8 text) := by
        by_cases hget : disk.get? options.fetchPath = some (utf8 text)
        · rw [Disk.missing_some, if_pos hget, List.append_nil, Disk.get?_save_of_notMem hown, hget]
        · rw [Disk.missing_some, if_neg hget]
          exact Disk.get?_save_concat disk own options.fetchPath text
      exact iff_of_true ⟨text, htext, hafter⟩ (.inr ⟨own, text, rfl⟩)

/-- Apart from the shared fetch module, what a run puts out does not depend on the disk. -/
theorem apartFromFetch_run :
    apartFromFetch options (disk.run options renderer request).outcome =
      (request.prepare options renderer).map Prod.fst := by
  unfold apartFromFetch Disk.run
  rw [generate_probe_eq]
  cases hp : request.prepare options renderer with
  | error fault => rfl
  | ok made =>
    obtain ⟨own, needed⟩ := made
    have hown : own.filter (·.name ≠ options.fetchPath) = own := by
      rw [List.filter_eq_self]
      intro output hout
      have hne : output.name ≠ options.fetchPath := fun heq =>
        hk.notMem hp (heq ▸ List.mem_map_of_mem hout)
      simpa using hne
    have hmissing : (disk.missing options needed).filter (·.name ≠ options.fetchPath) = [] := by
      rw [List.filter_eq_nil_iff]
      intro output hout
      obtain ⟨text, -, rfl⟩ := Disk.eq_of_mem_missing hout
      simp
    simp only [Except.map, List.filter_append, hown, hmissing, List.append_nil]

end Step

/-! ### Histories -/

/-- **The history of requests on a disk**: their runs, each on what the earlier ones have left. -/
def history (options : Options) (renderer : Renderer) : Disk → List Request → List Run
  | _, [] => []
  | disk, request :: rest =>
    disk.run options renderer request ::
      history options renderer (disk.after options renderer request) rest

theorem history_cons_zero :
    (history options renderer disk (request :: requests))[0]? =
      some (disk.run options renderer request) := rfl

theorem history_cons_succ (i : Nat) :
    (history options renderer disk (request :: requests))[i + 1]? =
      (history options renderer (disk.after options renderer request) requests)[i]? := rfl

/-- Every run of a history is one of its requests on some disk. -/
theorem exists_run_of_mem_history {run : Run} (h : run ∈ history options renderer disk requests) :
    ∃ request ∈ requests, ∃ other : Disk, run = other.run options renderer request := by
  induction requests generalizing disk with
  | nil => cases h
  | cons request rest ih =>
    rcases List.mem_cons.mp h with rfl | h
    · exact ⟨request, List.mem_cons_self, disk, rfl⟩
    · obtain ⟨later, hl, other, heq⟩ := ih h
      exact ⟨later, List.mem_cons_of_mem _ hl, other, heq⟩

/-- **A run of a history puts out the shared fetch module** when it is the first one that needs it
and the disk did not hold it at the beginning. -/
theorem putsOutFetch_history_iff (hk : ∀ request ∈ requests, request.KeepsOffFetch options)
    {i : Nat} {run : Run} (hr : (history options renderer disk requests)[i]? = some run) :
    run.PutsOutFetch options ↔
      run.NeedsFetch options ∧
        (∀ j < i, ∀ earlier : Run, (history options renderer disk requests)[j]? = some earlier →
          ¬earlier.NeedsFetch options) ∧
        ¬disk.HoldsFetch options renderer := by
  -- the induction moves the beginning of the history: the disk after the first run holds the module
  -- if the disk before it did, or the first run needed it
  induction requests generalizing disk i with
  | nil => cases hr
  | cons request rest ih =>
    rw [List.forall_mem_cons] at hk
    cases i with
    | zero =>
      rw [history_cons_zero, Option.some.injEq] at hr
      subst hr
      rw [putsOutFetch_run_iff hk.1]
      simp
    | succ i =>
      rw [history_cons_succ] at hr
      rw [ih hk.2 hr, holdsFetch_after_iff hk.1, not_or]
      refine and_congr_right fun _ => ?_
      constructor
      · rintro ⟨hearlier, hnot, hfirst⟩
        refine ⟨fun j hj earlier he => ?_, hnot⟩
        cases j with
        | zero => exact Option.some.inj he ▸ hfirst
        | succ j => exact hearlier j (by omega) earlier he
      · rintro ⟨hearlier, hnot⟩
        refine ⟨fun j hj earlier he => ?_, hnot, hearlier 0 (by omega) _ rfl⟩
        exact hearlier (j + 1) (by omega) earlier he

/-- **How often the shared fetch module is put out over a history.** -/
structure FetchOnce (options : Options) (renderer : Renderer) (disk : Disk)
    (requests : List Request) : Prop where
  /-- No two runs put it out. -/
  atMostOnce : ∀ (i j : Nat) (run other : Run),
    (history options renderer disk requests)[i]? = some run →
    (history options renderer disk requests)[j]? = some other →
    run.PutsOutFetch options → other.PutsOutFetch options → i = j
  /-- The first successful run that selects a callable module puts it out, unless the disk holds
  exactly its bytes from the beginning; no other run does. -/
  first : ∀ (i : Nat) (run : Run), (history options renderer disk requests)[i]? = some run →
    (run.PutsOutFetch options ↔
      run.NeedsFetch options ∧
        (∀ j < i, ∀ earlier : Run, (history options renderer disk requests)[j]? = some earlier →
          ¬earlier.NeedsFetch options) ∧
        ¬disk.HoldsFetch options renderer)
  /-- What is put out at its path is its text without blank ends. -/
  text : ∀ run ∈ history options renderer disk requests, ∀ outputs, run.outcome = .ok outputs →
    ∀ output ∈ outputs, output.name = options.fetchPath →
      ∃ rendered, renderer.renderFetch options.stylingCheck = .ok rendered ∧
        output.content = trim rendered
  /-- Apart from it, every run comes to the same on any other disk. -/
  apart : ∀ run ∈ history options renderer disk requests, ∀ other : Disk,
    apartFromFetch options run.outcome =
      apartFromFetch options (generate options renderer other.probe run.request)

/-- **Over a history the shared fetch module is put out once**, when all runs keep off its path. -/
theorem fetchOnce_history (hk : ∀ request ∈ requests, request.KeepsOffFetch options) :
    FetchOnce options renderer disk requests where
  atMostOnce i j run other hr ho hrun hother := by
    obtain ⟨hneeds, hfirst, -⟩ := (putsOutFetch_history_iff hk hr).mp hrun
    obtain ⟨hneeds', hfirst', -⟩ := (putsOutFetch_history_iff hk ho).mp hother
    rcases Nat.lt_trichotomy i j with hlt | heq | hgt
    · exact absurd hneeds (hfirst' i hlt run hr)
    · exact heq
    · exact absurd hneeds' (hfirst j hgt other ho)
  first i run hr := putsOutFetch_history_iff hk hr
  text run hrun outputs hout output hmem hname := by
    obtain ⟨request, hreq, other, rfl⟩ := exists_run_of_mem_history hrun
    rw [Disk.run, generate_probe_eq] at hout
    obtain ⟨⟨own, needed⟩, hp, rfl⟩ := map_eq_ok_iff.mp hout
    rcases List.mem_append.mp hmem with hmem | hmem
    · exact absurd (hname ▸ List.mem_map_of_mem hmem) ((hk request hreq).notMem hp)
    · obtain ⟨text, rfl, rfl⟩ := Disk.eq_of_mem_missing hmem
      exact fetchText_eq_ok_iff.mp (Request.fetchText_of_prepare hp)
  apart run hrun other := by
    obtain ⟨request, hreq, disk', rfl⟩ := exists_run_of_mem_history hrun
    have hapart : ∀ disk : Disk,
        apartFromFetch options (disk.run options renderer request).outcome =
          (request.prepare options renderer).map Prod.fst :=
      fun _ => apartFromFetch_run (hk request hreq)
    rw [hapart disk']
    exact (hapart other).symm

/-- The sample is generated twice on an empty disk: the first run puts out the shared fetch module,
and the second does not. -/
theorem fetchOnce_sample :
    (∀ request ∈ [Sample.request, Sample.request], request.KeepsOffFetch {}) ∧
      (history {} Sample.labels .empty [Sample.request, Sample.request]).map Run.outcome =
        [.ok [⟨"shop/cart/cart.pb.ts", "// shop/cart/cart.proto"⟩,
            ⟨"shop/item.pb.ts", "// shop/item.proto"⟩, ⟨"fetch.pb.ts", "// fetch"⟩],
          .ok [⟨"shop/cart/cart.pb.ts", "// shop/cart/cart.proto"⟩,
            ⟨"shop/item.pb.ts", "// shop/item.proto"⟩]] ∧
      FetchOnce {} Sample.labels .empty [Sample.request, Sample.request] := by
  have hk : ∀ request ∈ [Sample.request, Sample.request], request.KeepsOffFetch {} := by
    have hkeeps : Sample.request.KeepsOffFetch {} :=
      Request.keepsOffFetch_of_requested (by decide +kernel)
    simpa using hkeeps
  exact ⟨hk, by decide +kernel, fetchOnce_history hk⟩

/-! ### Workspaces on a disk -/

theorem Store.save?_disk (disk : Disk) (broken : Option String) (outputs : List Output) :
    (Store.disk disk broken).save? outputs = .ok (.disk (disk.save outputs) broken) := by
  induction outputs generalizing disk with
  | nil => rfl
  | cons output rest ih =>
    rw [save?, List.foldlM_cons]
    exact ih (disk.write output)

/-- **A run of a workspace on a disk is a run of a history**, and leaves the disk after it. -/
theorem Workspace.generateAndSave?_of_disk {workspace : Workspace}
    (hs : workspace.store = .disk disk none) (renderer : Renderer) (requested : List String) :
    workspace.generateAndSave? renderer requested =
      .ok ((disk.run workspace.options renderer ⟨workspace.files, requested⟩).outcome,
        { workspace with
          store := .disk (disk.after workspace.options renderer ⟨workspace.files, requested⟩)
            none }) := by
  have hgen : workspace.generate renderer requested =
      ProtoClient.generate workspace.options renderer disk.probe ⟨workspace.files, requested⟩ := by
    rw [generate, hs, Store.probe]
  unfold generateAndSave?
  rw [hgen, Disk.run, Disk.after]
  cases ProtoClient.generate workspace.options renderer disk.probe ⟨workspace.files, requested⟩ with
  | error fault => simp [← hs]
  | ok outputs =>
    simp only [hs, Store.save?_disk]
    rfl

end ProtoClient
