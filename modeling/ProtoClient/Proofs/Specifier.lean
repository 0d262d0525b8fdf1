import ProtoClient.Proofs.ClosedSystem

/-!
# Which specifiers lead back

A relative specifier leads up from the directory of its source to the directory that it shares with
its target, and then down. It leads back to its target exactly when the way up does not lead through
`..`: what is above the place that the paths are seen from has no name, so there is no way down to
it again. An absolute target is always imported by its own path.

## Main definitions

* `asideSteps source target`: the steps to the source from the directory it shares with the target
* `lastStep path`: the last step of a path
* `LeadsBack source target spec`: where a specifier leads from the directory of its source

## Main results

* `Path.IsClean.along_relativeSteps_iff`: relative steps lead from one place to the other unless the
  way up leads through `..`
* `specifier_leadsBack`: every specifier leads back, those in the modules of a run included
-/

namespace ProtoClient

open Text

variable {here there steps : List String} {source target : String}

/-! ### Relative steps -/

/-- Going up first and then on leads as far up, and on from there. -/
theorem Path.along_dots_append_start (ups : Nat) (more : List String) :
    (start false).along (List.replicate ups ".." ++ more) =
      ⟨false, List.replicate ups ".." ++ ((start false).along more).steps⟩ := by
  have hmore := along_dots_append ups [] more
  rw [List.append_nil] at hmore
  rw [along_append, along_dots, hmore]
  rfl

/-- Going up further than there are names leads up further from where the names begin. -/
theorem Path.along_dots_through (hn : ∀ step ∈ steps, IsName step) (ups more : Nat)
    (rest : List String) :
    Path.along ⟨false, List.replicate ups ".." ++ steps⟩
        (List.replicate (steps.length + more) ".." ++ rest) =
      ⟨false, List.replicate (ups + more) ".." ++ ((start false).along rest).steps⟩ := by
  rw [List.replicate_add, List.append_assoc, along_append, along_dots_names hn, ← along_dots,
    ← along_append, ← List.append_assoc, ← List.replicate_add, along_dots_append_start]

/-- **Relative steps through `..` lead too far up**: the way up goes on from what is not shared,
while nothing leads down to that again. -/
theorem Path.IsClean.along_relativeSteps_ne (h : Path.IsClean ⟨false, here⟩)
    (hup : ".." ∈ here.drop (sharedLength here there)) (last : List String) :
    Path.along ⟨false, here⟩ (relativeSteps here there ++ last) ≠
      (Path.start false).along (there ++ last) := by
  have hshared := take_sharedLength here there
  unfold relativeSteps
  dsimp only
  generalize sharedLength here there = shared at hup hshared ⊢
  obtain ⟨ups, names, heq, hn, -⟩ := h
  obtain rfl : here = List.replicate ups ".." ++ names := heq
  obtain ⟨more, hpos, rfl⟩ : ∃ more, 0 < more ∧ ups = shared + more := by
    refine ⟨ups - shared, ?_⟩
    by_contra hle
    have hzero : ups - shared = 0 := by omega
    rw [List.drop_append, List.drop_replicate, hzero] at hup
    exact (hn _ (List.mem_of_mem_drop hup)).ne_dots rfl
  have hfront : (List.replicate (shared + more) ".." ++ names).take shared =
      List.replicate shared ".." := by
    rw [List.replicate_add, List.append_assoc, List.take_left' List.length_replicate]
  have hthere : there ++ last = List.replicate shared ".." ++ (there.drop shared ++ last) := by
    rw [← hfront, hshared, ← List.append_assoc, List.take_append_drop]
  have hback : (List.replicate (shared + more) ".." ++ names).length - shared =
      names.length + more := by
    rw [List.length_append, List.length_replicate]
    omega
  rw [hthere, hback, List.append_assoc, Path.along_dots_through hn, Path.along_dots_append_start]
  intro heq
  have hlength := congrArg (fun path => path.steps.length) heq
  simp only [List.length_append, List.length_replicate] at hlength
  omega

/-- **Relative steps lead from one place to the other**, with more steps behind them, exactly when
the way up to what they share does not lead through `..`. -/
theorem Path.IsClean.along_relativeSteps_iff (h : Path.IsClean ⟨false, here⟩) (last : List String) :
    Path.along ⟨false, here⟩ (relativeSteps here there ++ last) =
        (Path.start false).along (there ++ last) ↔
      ".." ∉ here.drop (sharedLength here there) := by
  constructor
  · exact fun heq hup => h.along_relativeSteps_ne hup last heq
  · intro hup
    rw [Path.along_append, h.along_relativeSteps hup, ← Path.along_append]

/-! ### Specifiers -/

/-- The steps down to the directory of the source from the one that it shares with its target, the
longest common front of both. -/
def asideSteps (source target : String) : List String :=
  (split '/' (joinClean "." source)).dropLast.drop
    (sharedLength (split '/' (joinClean "." source)).dropLast
      (split '/' (joinClean "." target)).dropLast)

/-- **A relative specifier leads back to its target** from the directory of its source, with the
extension put back, exactly when the way up does not lead through `..`. -/
theorem joinClean_specifier_iff (source : String) (hrel : hasFront "/" (slashed target) = false) :
    joinClean (directory (joinClean "." source))
        (specifier source target ++ extension (joinClean "." target)) = joinClean "." target ↔
      ".." ∉ asideSteps source target := by
  obtain ⟨hhere, -⟩ := directory_joinClean_dot source
  have hcleanHere := hhere.along fun _ => @isPlain_of_mem_specifierSteps source target _
  have hcleanThere := (Path.isClean_start false).along (isPlain_of_mem_split_joinClean_dot target)
  have hsteps := @Path.IsClean.along_relativeSteps_iff _ (split '/' (joinClean "." target)).dropLast
    hhere [(split '/' (joinClean "." target)).getLastD ""]
  rw [dropLast_append_getLastD_split] at hsteps
  conv_lhs => rw [joinClean_directory_specifier source hrel, ← toText_along_joinClean_dot target]
  refine Iff.trans ⟨hcleanHere.toText_inj hcleanThere, congrArg Path.toText⟩ ?_
  exact hsteps

/-- From outside, the way up to the inside leads further out. -/
example : specifier "../a.ts" "b.ts" = "../b" ∧ joinClean ".." "../b.ts" = "../../b.ts" := by
  decide +kernel

/-- The last step of a path. -/
def lastStep (path : String) : String :=
  (split '/' path).getLastD ""

/-- **Where a specifier leads**, once the extension of the target is put back: from the directory of
its source it leads to a relative target, unless the way up leads through `..`, and it is written as
a relative path; for an absolute target it is the path itself. -/
structure LeadsBack (source target spec : String) : Prop where
  relative : hasFront "/" (slashed target) = false →
    (joinClean (directory (joinClean "." source))
        (spec ++ extension (lastStep (joinClean "." target))) = joinClean "." target ↔
      ".." ∉ asideSteps source target)
  written : hasFront "/" (slashed target) = false →
    hasFront "./" spec = true ∨ hasFront "../" spec = true
  absolute : hasFront "/" (slashed target) = true →
    spec ++ extension (lastStep (joinClean "/" target)) = joinClean "/" target

/-- **A specifier leads back to its target.** -/
theorem leadsBack_specifier (source target : String) :
    LeadsBack source target (specifier source target) := by
  refine ⟨fun hrel => ?_, fun hrel => ?_, fun habs => ?_⟩
  · rw [lastStep, extension_getLastD]
    exact joinClean_specifier_iff source hrel
  · unfold specifier
    rw [if_neg (by simp [hrel])]
    dsimp only
    split
    · next hdots => exact .inr hdots
    · exact .inl (hasFront_iff.mpr ⟨_, rfl⟩)
  · rw [lastStep, extension_getLastD]
    exact specifier_of_absolute source habs

/-- **Every specifier leads back to its target**: those that the modules of a run import from lead
back to the imported modules, and to the shared fetch module. -/
theorem specifier_leadsBack :
    (∀ source target, LeadsBack source target (specifier source target)) ∧
      ∀ options files modules, modulesOf options files = .ok modules → ∀ module ∈ modules,
        (∀ entry ∈ module.imports, LeadsBack module.output entry.output entry.specifier) ∧
          ∀ spec ∈ module.fetch, LeadsBack module.output options.fetchPath spec := by
  refine ⟨leadsBack_specifier, fun options files modules hok module hm => ⟨?_, ?_⟩⟩
  · intro entry hentry
    rw [imports_of_mem_modulesOf hok hm, importsOf_eq_map] at hentry
    obtain ⟨other, -, rfl⟩ := List.mem_map.mp hentry
    rw [specifier_importFrom, output_importFrom]
    exact leadsBack_specifier module.output (outputPath other)
  · intro spec hspec
    obtain ⟨registry, file, -, hmodule⟩ := exists_file_of_mem_modulesOf hok hm
    rw [ClientModule.fetch_of_ofFile? hmodule hspec]
    exact leadsBack_specifier module.output options.fetchPath

/-- In the sample, the cart is in a directory of its own, from which it imports the item. -/
theorem specifier_leadsBack_sample :
    ∃ modules, modulesOf {} Sample.request.files = .ok modules ∧
      (modules.map fun module => module.imports.map Import.specifier) = [[], ["../item.pb"]] ∧
      modules.map ClientModule.fetch = [none, some "../../fetch.pb"] ∧
      ∀ module ∈ modules,
        (∀ entry ∈ module.imports, LeadsBack module.output entry.output entry.specifier) ∧
          ∀ spec ∈ module.fetch, LeadsBack module.output ({} : Options).fetchPath spec := by
  have hrun : ((modulesOf {} Sample.request.files).map fun modules =>
      (modules.map fun module => module.imports.map Import.specifier,
        modules.map ClientModule.fetch)) =
      .ok ([[], ["../item.pb"]], [none, some "../../fetch.pb"]) := by decide +kernel
  obtain ⟨modules, hok, hspecs⟩ := map_eq_ok_iff.mp hrun
  obtain ⟨himports, hfetch⟩ := Prod.mk.inj hspecs
  exact ⟨modules, hok, himports, hfetch, specifier_leadsBack.2 {} Sample.request.files modules hok⟩

end ProtoClient
