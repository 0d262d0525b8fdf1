import Mathlib.Data.List.Basic
import ProtoClient.OutputPath
import ProtoClient.Proofs.Path

/-!
# Where output paths and import specifiers lead

Different proto files are written to different paths, and the path of a module is clean when the
name of its file is. A specifier leads from the directory of the importing module back to the
imported one, as long as the way to the directory that they share does not lead through `..`.

## Main definitions

* `IsPlainProto name`: the name ends in `.proto` and has no backslash
* `IsCleanProto name`: the name ends in `.proto` and is a clean path that does not lead up
* `LeadsDown path`: the path leads down along names
* `extension path`: the end of a path that its specifier leaves out

## Main results

* `outputPath_inj`: different proto files are written to different paths
* `IsCleanProto.leadsDown_outputPath`: a clean proto file is written to a path that leads down
* `Path.IsClean.along_relativeSteps`: relative steps lead from one place to the other
* `joinClean_specifier`: a specifier leads back to its target
-/

namespace ProtoClient

open Text

variable {name stem source target : String} {here there steps : List String}

/-! ### Paths of proto files -/

/-- The name ends in `.proto` and has no backslash. -/
def IsPlainProto (name : String) : Prop :=
  hasEnd ".proto" name = true ∧ '\\' ∉ name.toList

instance (name : String) : Decidable (IsPlainProto name) :=
  inferInstanceAs (Decidable (_ ∧ _))

/-- The module of a proto file stands beside it, under its own extension. -/
theorem outputPath_append (h : '\\' ∉ (stem ++ ".proto").toList) :
    outputPath (stem ++ ".proto") = stem ++ ".pb.ts" := by
  unfold outputPath
  rw [slashed_eq_self h, withoutEnd_append]

/-- **Different proto files are written to different paths.** -/
theorem outputPath_inj {name' : String} (h : IsPlainProto name) (h' : IsPlainProto name')
    (heq : outputPath name = outputPath name') : name = name' := by
  obtain ⟨stem, rfl⟩ := hasEnd_iff.mp h.1
  obtain ⟨stem', rfl⟩ := hasEnd_iff.mp h'.1
  rw [outputPath_append h.2, outputPath_append h'.2] at heq
  have hstem : stem = stem' := by
    have := congrArg (withoutEnd ".pb.ts") heq
    rwa [withoutEnd_append, withoutEnd_append] at this
  rw [hstem]

/-- **A clean proto name** ends in `.proto` and is a clean path that does not lead up. -/
structure IsCleanProto (name : String) : Prop where
  proto : hasEnd ".proto" name = true
  clean : joinClean "." name = name
  inside : (split '/' name).head? ≠ some ".."

instance (name : String) : Decidable (IsCleanProto name) :=
  decidable_of_iff (hasEnd ".proto" name = true ∧ joinClean "." name = name ∧
      (split '/' name).head? ≠ some "..")
    ⟨fun ⟨hproto, hclean, hinside⟩ => ⟨hproto, hclean, hinside⟩,
      fun h => ⟨h.proto, h.clean, h.inside⟩⟩

/-- **The path leads down** along names. -/
def LeadsDown (path : String) : Prop := ∀ step ∈ split '/' path, IsName step

namespace LeadsDown

variable {path : String}

theorem isClean (h : LeadsDown path) : Path.IsClean ⟨false, split '/' path⟩ :=
  ⟨0, split '/' path, rfl, h, fun _ => rfl⟩

theorem toText_eq (h : LeadsDown path) : Path.toText ⟨false, split '/' path⟩ = path := by
  rw [h.isClean.toText_eq_intercalate (split_ne_nil _ _), intercalate_split toList_slash]

theorem joinClean_eq (h : LeadsDown path) : joinClean "." path = path := by
  have hself := h.isClean.joinClean_start
  rwa [h.toText_eq] at hself

/-- A path that leads down does not begin at the root. -/
theorem hasFront_slashed (h : LeadsDown path) : hasFront "/" (slashed path) = false := by
  rw [← h.toText_eq, slashed_eq_self h.isClean.backslash_notMem_toText, h.isClean.hasFront_toText]

end LeadsDown

/-- What ends in a long text is a name. -/
theorem isName_append {tail : String} (h : IsPlain (stem ++ tail)) (hl : 2 < tail.length) :
    IsName (stem ++ tail) := by
  have hne {short : String} (hs : short.length ≤ 2) : stem ++ tail ≠ short := by
    rintro rfl
    rw [String.length_append] at hs
    omega
  exact ⟨h, hne (by decide), hne (by decide), hne (by decide)⟩

namespace IsCleanProto

theorem isPlain (h : IsCleanProto name) : IsPlainProto name := by
  refine ⟨h.proto, ?_⟩
  obtain ⟨path, hclean, -, heq⟩ := exists_isClean_joinClean_dot name
  rw [h.clean] at heq
  rw [heq]
  exact hclean.backslash_notMem_toText

/-- A clean proto name leads down. -/
theorem leadsDown (h : IsCleanProto name) : LeadsDown name := by
  intro step hs
  obtain ⟨⟨absolute, steps⟩, hclean, ha, heq⟩ := exists_isClean_joinClean_dot name
  obtain rfl : absolute = false := ha
  rw [h.clean] at heq
  by_cases hne : steps = []
  · have hproto := h.proto
    rw [heq, hne] at hproto
    exact absurd hproto (by decide)
  have hsplit : split '/' name = steps := by
    rw [heq, hclean.toText_eq_intercalate hne]
    exact hclean.split_intercalate hne
  rw [hsplit] at hs
  obtain ⟨ups, names, hsteps, hn, -⟩ := hclean
  obtain rfl : steps = List.replicate ups ".." ++ names := hsteps
  cases ups with
  | zero => exact hn step hs
  | succ ups => exact absurd (congrArg List.head? hsplit) h.inside

/-- **A clean proto file is written to a path that leads down.** -/
theorem leadsDown_outputPath (h : IsCleanProto name) : LeadsDown (outputPath name) := by
  have hname := h.leadsDown
  obtain ⟨stem, rfl⟩ := hasEnd_iff.mp h.proto
  rw [outputPath_append h.isPlain.2]
  unfold LeadsDown at hname ⊢
  rw [split_append_of_notMem stem (by decide), List.forall_mem_append, List.forall_mem_singleton]
    at hname ⊢
  refine ⟨hname.1, isName_append ?_ (by decide)⟩
  have hplain := hname.2.plain
  unfold IsPlain at hplain ⊢
  rw [String.toList_append, List.mem_append, List.mem_append, not_or, not_or] at hplain ⊢
  exact ⟨⟨hplain.1.1, by decide⟩, hplain.2.1, by decide⟩

end IsCleanProto

/-! ### Relative steps -/

/-- What two places share at the front is the front of both. -/
theorem take_sharedLength (here there : List String) :
    here.take (sharedLength here there) = there.take (sharedLength here there) := by
  induction here generalizing there with
  | nil => simp [sharedLength]
  | cons a rest ih =>
    cases there with
    | nil => simp [sharedLength]
    | cons b rest' =>
      unfold sharedLength
      split
      · next heq => rw [List.take_succ_cons, List.take_succ_cons, ih, heq]
      · rw [List.take_zero, List.take_zero]

/-- **Relative steps lead from one place to the other**, unless the way up to what they share leads
through `..`. -/
theorem Path.IsClean.along_relativeSteps (h : Path.IsClean ⟨false, here⟩)
    (hup : ".." ∉ here.drop (sharedLength here there)) :
    Path.along ⟨false, here⟩ (relativeSteps here there) = (Path.start false).along there := by
  have hnames : ∀ step ∈ here.drop (sharedLength here there), IsName step := by
    intro step hs
    refine (h.eq_dots_or_isName (List.mem_of_mem_drop hs)).resolve_left ?_
    rintro rfl
    exact hup hs
  have hhere : here.take (sharedLength here there) ++ here.drop (sharedLength here there) = here :=
    List.take_append_drop _ _
  have hback : Path.along
      ⟨false, here.take (sharedLength here there) ++ here.drop (sharedLength here there)⟩
      (List.replicate (here.drop (sharedLength here there)).length "..") =
        ⟨false, here.take (sharedLength here there)⟩ :=
    Path.along_dots_names hnames
  rw [hhere, List.length_drop] at hback
  have hcommon : Path.IsClean ⟨false, here.take (sharedLength here there)⟩ := by
    rw [← hhere] at h
    exact h.of_append
  show Path.along _ (List.replicate (here.length - sharedLength here there) ".." ++
    there.drop (sharedLength here there)) = _
  rw [Path.along_append, hback, ← hcommon.eq_along]
  show ((Path.start false).along (here.take (sharedLength here there))).along _ = _
  rw [← Path.along_append, take_sharedLength, List.take_append_drop]

/-! ### Specifiers -/

/-- The end of a path that its specifier leaves out. -/
def extension (path : String) : String :=
  if hasEnd ".ts" path then ".ts" else ""

theorem withoutEnd_append_extension (path : String) :
    withoutEnd ".ts" path ++ extension path = path := by
  unfold extension
  by_cases h : hasEnd ".ts" path = true
  · obtain ⟨front, rfl⟩ := hasEnd_iff.mp h
    rw [if_pos h, withoutEnd_append]
  · rw [if_neg h, withoutEnd_eq_self (by simpa using h), String.append_empty]

theorem extension_outputPath (name : String) : extension (outputPath name) = ".ts" := by
  refine if_pos (hasEnd_iff.mpr ⟨withoutEnd ".proto" (slashed name) ++ ".pb", ?_⟩)
  rw [String.append_assoc]
  rfl

/-- A path has the extension of its last step. -/
theorem extension_getLastD (path : String) :
    extension ((split '/' path).getLastD "") = extension path := by
  have hiff : hasEnd ".ts" ((split '/' path).getLastD "") = hasEnd ".ts" path := by
    rw [Bool.eq_iff_iff]
    constructor
    · intro h
      obtain ⟨front, hlast⟩ := hasEnd_iff.mp h
      have hsplit := dropLast_append_getLastD_split '/' path
      rw [hlast] at hsplit
      rw [← intercalate_split toList_slash path, ← hsplit, ← intercalate_concat_append]
      exact hasEnd_iff.mpr ⟨_, rfl⟩
    · intro h
      obtain ⟨front, rfl⟩ := hasEnd_iff.mp h
      rw [split_append_of_notMem front (by decide), List.getLastD_concat]
      exact hasEnd_iff.mpr ⟨_, rfl⟩
  unfold extension
  rw [hiff]

/-- The directory of a path leads to where the steps before the last one lead. -/
theorem directory_joinClean_dot (path : String) :
    Path.IsClean ⟨false, (split '/' (joinClean "." path)).dropLast⟩ ∧
      directory (joinClean "." path) =
        Path.toText ⟨false, (split '/' (joinClean "." path)).dropLast⟩ := by
  have hclean : Path.IsClean ⟨false, (split '/' (joinClean "." path)).dropLast⟩ := by
    obtain ⟨⟨absolute, steps⟩, h, ha, heq⟩ := exists_isClean_joinClean_dot path
    obtain rfl : absolute = false := ha
    rw [heq, h.split_toText]
    cases steps with
    | nil => exact Path.isClean_start false
    | cons first rest =>
      rw [← List.dropLast_concat_getLast (List.cons_ne_nil first rest)] at h
      exact h.of_append
  refine ⟨hclean, ?_⟩
  unfold directory
  split
  · next h =>
    rw [h]
    rfl
  · next hne => exact (hclean.toText_eq_intercalate hne).symm

/-- The steps of a relative specifier: those from the directory of the source to the target. -/
def specifierSteps (source target : String) : List String :=
  let here := (split '/' (joinClean "." source)).dropLast
  let there := split '/' (joinClean "." target)
  relativeSteps here there.dropLast ++ [there.getLastD ""]

/-- What stands between the slashes of a cleaned path is plain. -/
theorem isPlain_of_mem_split_joinClean_dot (path : String) :
    ∀ step ∈ split '/' (joinClean "." path), IsPlain step := by
  obtain ⟨clean, hclean, -, heq⟩ := exists_isClean_joinClean_dot path
  rw [heq]
  exact fun step => isPlain_of_mem_split hclean.backslash_notMem_toText

theorem isPlain_of_mem_specifierSteps {step : String} (h : step ∈ specifierSteps source target) :
    IsPlain step := by
  have hthere := isPlain_of_mem_split_joinClean_dot target
  rw [← dropLast_append_getLastD_split, List.forall_mem_append] at hthere
  rcases List.mem_append.mp h with h | h
  · rcases List.mem_append.mp h with hdots | hdown
    · rw [List.eq_of_mem_replicate hdots]
      exact ⟨by decide, by decide⟩
    · exact hthere.1 step (List.mem_of_mem_drop hdown)
  · exact hthere.2 step h

/-- A relative specifier is written as its steps, maybe after a dot. -/
theorem exists_split_specifier (hrel : hasFront "/" (slashed target) = false) :
    ∃ lead, (lead = [] ∨ lead = ["."]) ∧
      split '/' (specifier source target ++ extension (joinClean "." target)) =
        lead ++ specifierSteps source target := by
  unfold specifier
  rw [if_neg (by simp [hrel]), ← extension_getLastD]
  dsimp only
  generalize htext : "/".intercalate _ = text
  have hsplit : split '/' (text ++ extension ((split '/' (joinClean "." target)).getLastD "")) =
      specifierSteps source target := by
    rw [← htext, intercalate_concat_append, withoutEnd_append_extension]
    apply split_intercalate toList_slash (by simp)
    intro step hs
    exact (isPlain_of_mem_specifierSteps hs).1
  split
  · refine ⟨[], .inl rfl, ?_⟩
    rw [List.nil_append, hsplit]
  · refine ⟨["."], .inr rfl, ?_⟩
    rw [List.singleton_append, String.append_assoc, split_dot_slash_append, hsplit]

/-- A cleaned path leads to itself. -/
theorem toText_along_joinClean_dot (path : String) :
    ((Path.start false).along (split '/' (joinClean "." path))).toText = joinClean "." path := by
  obtain ⟨⟨absolute, steps⟩, h, ha, heq⟩ := exists_isClean_joinClean_dot path
  obtain rfl : absolute = false := ha
  rw [heq]
  exact congrArg Path.toText h.along_split_toText

/-- **From the directory of its source, a relative specifier leads along its steps**, with the
extension put back. -/
theorem joinClean_directory_specifier (source : String)
    (hrel : hasFront "/" (slashed target) = false) :
    joinClean (directory (joinClean "." source))
        (specifier source target ++ extension (joinClean "." target)) =
      (Path.along ⟨false, (split '/' (joinClean "." source)).dropLast⟩
        (specifierSteps source target)).toText := by
  obtain ⟨hhere, hdir⟩ := directory_joinClean_dot source
  obtain ⟨lead, hlead, hsplit⟩ := exists_split_specifier hrel
  have hplain : '\\' ∉ (specifier source target ++ extension (joinClean "." target)).toList := by
    rw [← exists_mem_split_iff (by decide : '\\' ≠ '/'), hsplit]
    rintro ⟨step, hs, hb⟩
    rcases List.mem_append.mp hs with hs | hs
    · rcases hlead with rfl | rfl
      · cases hs
      · rw [List.mem_singleton.mp hs] at hb
        exact absurd hb (by decide)
    · exact (isPlain_of_mem_specifierSteps hs).2 hb
  have hstay (place : Path) : place.along lead = place := by
    rcases hlead with rfl | rfl
    · exact place.along_nil
    · exact place.along_dot
  rw [hdir, hhere.joinClean_toText, slashed_eq_self hplain, hsplit, Path.along_append, hstay]

/-- **A specifier leads back to its target** from the directory of its source, with the extension
put back, unless the way up to the directory that they share leads through `..`. -/
theorem joinClean_specifier (source : String) (hrel : hasFront "/" (slashed target) = false)
    (hup : ".." ∉ (split '/' (joinClean "." source)).dropLast.drop
      (sharedLength (split '/' (joinClean "." source)).dropLast
        (split '/' (joinClean "." target)).dropLast)) :
    joinClean (directory (joinClean "." source))
      (specifier source target ++ extension (joinClean "." target)) = joinClean "." target := by
  obtain ⟨hhere, -⟩ := directory_joinClean_dot source
  rw [joinClean_directory_specifier source hrel]
  unfold specifierSteps
  rw [Path.along_append, hhere.along_relativeSteps hup, ← Path.along_append,
    dropLast_append_getLastD_split, toText_along_joinClean_dot]

/-- From a module that leads down, the specifier of a clean path leads back to it. -/
theorem LeadsDown.joinClean_specifier (h : LeadsDown source)
    (hrel : hasFront "/" (slashed target) = false) (hclean : joinClean "." target = target) :
    joinClean (directory source) (specifier source target ++ extension target) = target := by
  have hdots : ".." ∉ split '/' source := fun hs => (h _ hs).ne_dots rfl
  have hback := ProtoClient.joinClean_specifier source hrel
  rw [h.joinClean_eq, hclean] at hback
  exact hback fun hs => hdots (List.dropLast_subset _ (List.mem_of_mem_drop hs))

/-- An absolute target is imported by its path, up to the extension. -/
theorem specifier_of_absolute (source : String) (habs : hasFront "/" (slashed target) = true) :
    specifier source target ++ extension (joinClean "/" target) = joinClean "/" target := by
  unfold specifier
  rw [if_pos habs, withoutEnd_append_extension]

/-- **From a module that leads down, the specifier of any joined path leads to it**: from the root
or from the directory of the module. -/
theorem LeadsDown.specifier_joinClean (h : LeadsDown source) (dir file : String) :
    (hasFront "/" (joinClean dir file) = true →
      specifier source (joinClean dir file) ++ extension (joinClean dir file) =
        joinClean dir file) ∧
    (hasFront "/" (joinClean dir file) = false →
      joinClean (directory source)
        (specifier source (joinClean dir file) ++ extension (joinClean dir file)) =
          joinClean dir file) := by
  obtain ⟨path, hclean, -, heq⟩ := exists_isClean_joinClean dir file
  have hself := hclean.joinClean_start
  have hfront := hclean.hasFront_toText
  have hslashed := slashed_eq_self hclean.backslash_notMem_toText
  rw [← heq] at hself hfront hslashed
  generalize joinClean dir file = target at hself hfront hslashed ⊢
  constructor
  · intro habs
    rw [← hfront, habs, Path.toText_start_true] at hself
    have hback := specifier_of_absolute source (hslashed.symm ▸ habs)
    rw [hself] at hback
    exact hback
  · intro hrel
    rw [← hfront, hrel, Path.toText_start_false] at hself
    exact h.joinClean_specifier (hslashed.symm ▸ hrel) hself

end ProtoClient
