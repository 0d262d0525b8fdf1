import ProtoClient.Proofs.Generation
import ProtoClient.Proofs.OutputPath

/-!
# When two outputs of a run share a path

Different proto files are written to different paths. The path of the shared fetch module is an
option, though, and nothing keeps it apart from the paths of the modules: a run that writes the
shared fetch module to the path of a requested file puts out two texts for one path, and it is
only then that two of its outputs share a path.

## Main definitions

* `WritesFetch options renderer probe request`: the run writes the shared fetch module

## Main results

* `nodup_outputs_iff`: the outputs of a run have different paths unless the shared fetch module is
  written to the path of a requested file
* `outputs_of_fetch_proto`: the file `fetch.proto` and the shared fetch module share a path
-/

namespace ProtoClient

open Text

variable {options : Options} {renderer : Renderer} {probe : Probe} {request : Request}
  {outputs : List Output}

/-- **The run writes the shared fetch module**: a requested file can be called, and the module is
not at its path already. -/
def WritesFetch (options : Options) (renderer : Renderer) (probe : Probe)
    (request : Request) : Prop :=
  (∃ file ∈ request.files, file.name ∈ request.requested ∧ file.isCallable = true) ∧
    ∀ text, renderer.renderFetch options.stylingCheck = .ok text →
      probe options.fetchPath ≠ .ok (some (utf8 (trim text)))

/-- The run puts out the shared fetch module, at its own path, when it writes it. -/
theorem isSome_fetch_iff {modules selected : List ClientModule} {fetch : Option Output}
    (hd : (request.files.map File.name).Nodup) (hm : modulesOf options request.files = .ok modules)
    (hs : select modules request.requested = .ok selected)
    (hf : (if selected.any ClientModule.needsFetch then fetchOutput options renderer probe
      else .ok none) = .ok fetch) :
    (fetch.isSome = true ↔ WritesFetch options renderer probe request) ∧
      ∀ output ∈ fetch, output.name = options.fetchPath := by
  unfold WritesFetch
  rw [← any_needsFetch_iff hd hm hs]
  split at hf
  · next hn =>
    obtain ⟨text, present, htext, hpresent, rfl⟩ := fetchOutput_eq_ok_iff.mp hf
    rw [htext, hpresent]
    by_cases hp : present = some (utf8 (trim text))
    · simp [hn, hp]
    · simp [hn, hp]
  · next hn =>
    cases hf
    simp [hn]

/-- **The outputs of a run have different paths** unless the shared fetch module is written to the
path of a requested file. -/
theorem nodup_outputs_iff (hd : (request.files.map File.name).Nodup)
    (hp : ∀ file ∈ request.files, IsPlainProto file.name)
    (h : generate options renderer probe request = .ok outputs) :
    (outputs.map Output.name).Nodup ↔
      ¬(WritesFetch options renderer probe request ∧
        ∃ name ∈ request.requested, outputPath name = options.fetchPath) := by
  obtain ⟨modules, hm, h⟩ := generate_eq_ok.mp h
  obtain ⟨selected, own, fetch, hs, hown, hfetch, rfl⟩ := outputsOf_eq_ok_iff.mp h
  obtain ⟨hwrites, hpath⟩ := isSome_fetch_iff hd hm hs hfetch
  have hreq (name : String) (hn : name ∈ request.requested) :
      ∃ file ∈ request.files, file.name = name := by
    rw [← List.mem_eraseDups, ← names_of_select hs] at hn
    obtain ⟨module, hmod, rfl⟩ := List.mem_map.mp hn
    rw [← List.mem_map, ← names_of_modulesOf hm]
    exact List.mem_map_of_mem (mem_of_select hs hmod)
  have hown' : (own.map Output.name).Nodup := by
    rw [paths_of_select hm hs hown]
    apply (nodup_eraseDups _).map_on
    intro name hn name' hn' heq
    obtain ⟨file, hf, rfl⟩ := hreq name (List.mem_eraseDups.mp hn)
    obtain ⟨file', hf', rfl⟩ := hreq name' (List.mem_eraseDups.mp hn')
    exact outputPath_inj (hp file hf) (hp file' hf') heq
  rw [← hwrites]
  cases fetch with
  | none => simpa using hown'
  | some output =>
    have hname : output.name = options.fetchPath := hpath output rfl
    rw [List.map_append, List.nodup_append, paths_of_select hm hs hown]
    rw [paths_of_select hm hs hown] at hown'
    simp [hown', hname]

/-- The outputs of a run over the sample, the shared fetch module last, have different paths. -/
theorem nodup_outputs_sample :
    (Sample.request.files.map File.name).Nodup ∧
      (∀ file ∈ Sample.request.files, IsPlainProto file.name) ∧
      ∃ outputs, generate {} Sample.labels Sample.bare Sample.request = .ok outputs ∧
        outputs.map Output.name = ["shop/cart/cart.pb.ts", "shop/item.pb.ts", "fetch.pb.ts"] ∧
        ((outputs.map Output.name).Nodup ↔
          ¬(WritesFetch {} Sample.labels Sample.bare Sample.request ∧
            ∃ name ∈ Sample.request.requested, outputPath name = Options.fetchPath {})) := by
  have hd : (Sample.request.files.map File.name).Nodup := by decide
  have hp : ∀ file ∈ Sample.request.files, IsPlainProto file.name := by decide +kernel
  have hrun : generate {} Sample.labels Sample.bare Sample.request =
      .ok [⟨"shop/cart/cart.pb.ts", "// shop/cart/cart.proto"⟩,
        ⟨"shop/item.pb.ts", "// shop/item.proto"⟩, ⟨"fetch.pb.ts", "// fetch"⟩] := by
    decide +kernel
  exact ⟨hd, hp, _, hrun, rfl, nodup_outputs_iff hd hp hrun⟩

/-- A request for the file `fetch.proto`, which can be called. -/
def Sample.fetchRequest : Request where
  files := [{
    name := "fetch.proto"
    package := ""
    dependencies := []
    messages := []
    enums := []
    services := [⟨"Fetcher", [⟨"Fetch", ".google.protobuf.Empty", ".google.protobuf.Empty", false,
      false, some ⟨.get, "/", none⟩⟩]⟩] }]
  requested := ["fetch.proto"]

/-- **The file `fetch.proto` and the shared fetch module share a path** under the default
options. -/
theorem outputs_of_fetch_proto :
    (Sample.fetchRequest.files.map File.name).Nodup ∧
      (∀ file ∈ Sample.fetchRequest.files, IsPlainProto file.name) ∧
      ∃ outputs, generate {} Sample.labels Sample.bare Sample.fetchRequest = .ok outputs ∧
        outputs.map Output.name = ["fetch.pb.ts", "fetch.pb.ts"] ∧
        ¬(outputs.map Output.name).Nodup := by
  have hrun : generate {} Sample.labels Sample.bare Sample.fetchRequest =
      .ok [⟨"fetch.pb.ts", "// fetch.proto"⟩, ⟨"fetch.pb.ts", "// fetch"⟩] := by
    decide +kernel
  exact ⟨by decide, by decide +kernel, _, hrun, rfl, by decide⟩

end ProtoClient
