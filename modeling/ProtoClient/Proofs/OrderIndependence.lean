import ProtoClient.Proofs.Generation
import ProtoClient.Proofs.Registration

/-!
# The order of the files does not matter

Every stage of a run walks through the files in their order and stops at its first fault, so runs
over the same files in another order may fail at other places. They fail together, though, and when
they succeed nothing is left of the order: the registries are equal, every file has the same
module, and the outputs are the same.

## Main definitions

* `RunsAgree options renderer probe files files'`: what runs over two lists of files have in common

## Main results

* `Registry.agree_ofFiles_of_perm`, `agree_modulesOf_of_perm`: registration and resolution do not
  depend on the order
* `runsAgree_of_perm`: neither does the whole run
-/

namespace ProtoClient

variable {options : Options} {renderer : Renderer} {probe : Probe} {files files' : List File}

/-- Files are registered alike in any order. -/
theorem Registry.agree_ofFiles_of_perm (hp : files.Perm files') :
    Agree (· = ·) (ofFiles files) (ofFiles files') := by
  have hdecl : (declaredTypes files).Perm (declaredTypes files') := hp.flatMap_right _
  refine Agree.of_forall (fun registry h => ⟨registry, ?_, rfl⟩) fun registry h => ⟨registry, ?_⟩
  · exact ofFiles_eq_ok_iff.mpr ((ofFiles_eq_ok_iff.mp h).perm hdecl)
  · exact ofFiles_eq_ok_iff.mpr ((ofFiles_eq_ok_iff.mp h).perm hdecl.symm)

/-- Files are resolved alike in any order, and each is found under its name. -/
theorem agree_modulesOf_of_perm (hp : files.Perm files') (hd : (files.map File.name).Nodup) :
    Agree (fun modules modules' =>
        modules.Perm modules' ∧ ∀ name, named? modules name = named? modules' name)
      (modulesOf options files) (modulesOf options files') := by
  have hperm : Agree List.Perm (modulesOf options files) (modulesOf options files') := by
    refine (Registry.agree_ofFiles_of_perm hp).mapError.bind ?_
    rintro registry _ rfl
    exact agree_mapM_of_perm _ hp
  refine hperm.imp fun modules modules' h _ hm => ⟨hm, named?_of_perm ?_ hm⟩
  rwa [names_of_modulesOf h]

/-- **What runs over two lists of files have in common.** -/
structure RunsAgree (options : Options) (renderer : Renderer) (probe : Probe)
    (files files' : List File) : Prop where
  /-- Both lists are registered as one registry, or neither is registered. -/
  registries : Agree (· = ·) (Registry.ofFiles files) (Registry.ofFiles files')
  /-- Both are resolved, to the same module for each name, or neither is resolved. -/
  modules : Agree (fun modules modules' =>
      modules.Perm modules' ∧ ∀ name, named? modules name = named? modules' name)
    (modulesOf options files) (modulesOf options files')
  /-- Runs with the same requests both put out the same list, or neither has a result. -/
  outputs : ∀ requested, Agree (· = ·) (generate options renderer probe ⟨files, requested⟩)
    (generate options renderer probe ⟨files', requested⟩)
  /-- Whatever else is requested, a file that both runs are asked for has one output in both. -/
  shared : ∀ requested requested' outs outs',
    generate options renderer probe ⟨files, requested⟩ = .ok outs →
    generate options renderer probe ⟨files', requested'⟩ = .ok outs' →
    ∀ name ∈ requested, name ∈ requested' →
      ∃ output, output.name = outputPath name ∧ outputFor? requested outs name = some output ∧
        outputFor? requested' outs' name = some output

/-- **The order of the files does not matter.** -/
theorem runsAgree_of_perm (options : Options) (renderer : Renderer) (probe : Probe)
    (hp : files.Perm files') (hd : (files.map File.name).Nodup) :
    RunsAgree options renderer probe files files' where
  registries := Registry.agree_ofFiles_of_perm hp
  modules := agree_modulesOf_of_perm hp hd
  outputs requested := by
    apply (agree_modulesOf_of_perm hp hd).bind
    rintro modules modules' ⟨-, hnamed⟩
    rw [outputsOf_congr _ _ _ fun name _ => hnamed name]
    exact Agree.of_eq (fun _ => rfl) rfl
  shared requested requested' outs outs' h h' name hn hn' := by
    obtain ⟨modules, hm, hout⟩ := generate_eq_ok.mp h
    obtain ⟨modules', hm', hout'⟩ := generate_eq_ok.mp h'
    obtain ⟨module, output, hnamed, hmod, hfor⟩ := exists_outputFor? hout hn
    obtain ⟨module', output', hnamed', hmod', hfor'⟩ := exists_outputFor? hout' hn'
    have hagree : Agree _ (modulesOf options files) (modulesOf options files') :=
      agree_modulesOf_of_perm hp hd
    rw [hm, hm'] at hagree
    have hsame : module = module' :=
      Option.some.inj (hnamed.symm.trans ((hagree.2 name).trans hnamed'))
    subst hsame
    cases hmod.symm.trans hmod'
    refine ⟨output, ?_, hfor, hfor'⟩
    rw [name_of_moduleOutput hmod, output_of_mem_modulesOf hm (mem_of_named? hnamed),
      named?_name hnamed]

/-- The sample runs alike with its files in either order, and does run. -/
theorem runsAgree_sample :
    [Sample.item, Sample.cart].Perm [Sample.cart, Sample.item] ∧
      ([Sample.item, Sample.cart].map File.name).Nodup ∧
      RunsAgree {} Sample.labels Sample.bare [Sample.item, Sample.cart]
        [Sample.cart, Sample.item] ∧
      (generate {} Sample.labels Sample.bare Sample.request).isOk = true := by
  have hp : [Sample.item, Sample.cart].Perm [Sample.cart, Sample.item] := .swap ..
  have hd : ([Sample.item, Sample.cart].map File.name).Nodup := by decide
  exact ⟨hp, hd, runsAgree_of_perm _ _ _ hp hd, by decide +kernel⟩

end ProtoClient
