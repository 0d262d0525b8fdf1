import Mathlib.Data.List.Induction
import ProtoClient.Path
import ProtoClient.Proofs.Text.Affix

/-!
# Clean paths

Cleaning ends in a path that leads up first and then down along names, and that is cleaned to
itself. A clean path can be gone along: more steps lead to another clean path, and joining a
directory and a path in it goes along the path from the directory.

## Main definitions

* `IsName step`: the step leads down
* `Path.IsClean`: the path leads up, and then down along names
* `Path.along path steps`: where more steps lead
* `Path.GoesOn path step next`: how one step goes on along a clean path
* `joined dir file`: the text of a path in a directory

## Main results

* `Path.IsClean.along`: steps lead from a clean path to a clean path
* `Path.IsClean.eq_along`: a clean path is where its own steps lead
* `Path.IsClean.joinClean_toText`: joining goes along the joined path
* `Path.IsClean.toText_inj`: clean paths are told apart by their texts
* `isClean_clean_joined`: joining yields a clean path
-/

namespace ProtoClient

open Text

/-- A text without backslashes is written with slashes already. -/
theorem slashed_eq_self {s : String} (h : '\\' ∉ s.toList) : slashed s = s := by
  unfold slashed
  have hmap : s.toList.map (fun c => if c = '\\' then '/' else c) = s.toList.map id := by
    apply List.map_congr_left
    intro c hc
    rw [if_neg, id]
    rintro rfl
    exact h hc
  rw [hmap, List.map_id, String.ofList_toList]

theorem backslash_notMem_slashed (s : String) : '\\' ∉ (slashed s).toList := by
  unfold slashed
  rw [String.toList_ofList, List.mem_map]
  rintro ⟨c, -, hc⟩
  split at hc
  · cases hc
  · next hne => exact hne hc

/-- The text has slashes of neither kind. -/
def IsPlain (step : String) : Prop :=
  '/' ∉ step.toList ∧ '\\' ∉ step.toList

/-- What stands between the slashes of a text is plain once there are no backslashes. -/
theorem isPlain_of_mem_split {s step : String} (h : '\\' ∉ s.toList) (hs : step ∈ split '/' s) :
    IsPlain step := by
  refine ⟨notMem_of_mem_split hs, fun hb => h ?_⟩
  exact (exists_mem_split_iff (by decide) s).mp ⟨step, hs, hb⟩

/-- **A name** is a step that leads down. -/
structure IsName (step : String) : Prop where
  plain : IsPlain step
  ne_empty : step ≠ ""
  ne_dot : step ≠ "."
  ne_dots : step ≠ ".."

namespace Path

/-- **A clean path** leads up, though not from the root, and then down along names. -/
def IsClean (path : Path) : Prop :=
  ∃ ups names, path.steps = List.replicate ups ".." ++ names ∧ (∀ name ∈ names, IsName name) ∧
    (path.absolute = true → ups = 0)

/-- **Where more steps lead** from a clean path. -/
def along (path : Path) (steps : List String) : Path :=
  ⟨path.absolute, (steps.foldl (advance path.absolute) path.steps.reverse).reverse⟩

/-- The root, or wherever the reader stands. -/
def start (absolute : Bool) : Path := ⟨absolute, []⟩

variable {absolute : Bool} {path : Path} {steps names : List String} {step : String}

@[simp] theorem absolute_ofText (text : String) : (ofText text).absolute = hasFront "/" text := rfl

@[simp] theorem steps_ofText (text : String) : (ofText text).steps = split '/' text := rfl

theorem clean_eq_along (path : Path) : path.clean = (start path.absolute).along path.steps := rfl

@[simp] theorem absolute_along (path : Path) (steps : List String) :
    (path.along steps).absolute = path.absolute := rfl

/-! ### Single steps -/

@[simp] theorem along_nil (path : Path) : path.along [] = path := by
  unfold along
  rw [List.foldl_nil, List.reverse_reverse]

theorem along_append (path : Path) (front rest : List String) :
    path.along (front ++ rest) = (path.along front).along rest := by
  unfold along
  rw [List.foldl_append, List.reverse_reverse]

theorem along_cons (path : Path) (step : String) (rest : List String) :
    path.along (step :: rest) = (path.along [step]).along rest :=
  along_append path [step] rest

@[simp] theorem along_empty (path : Path) : path.along [""] = path :=
  along_nil path

@[simp] theorem along_dot (path : Path) : path.along ["."] = path :=
  along_nil path

theorem along_name (path : Path) (h : IsName step) :
    path.along [step] = ⟨path.absolute, path.steps ++ [step]⟩ := by
  unfold along
  rw [List.foldl_cons, List.foldl_nil, advance_down _ _ h.ne_empty h.ne_dot h.ne_dots,
    List.reverse_cons, List.reverse_reverse]

/-- From a name `..` leads back. -/
theorem along_dots_name (h : IsName step) :
    along ⟨absolute, steps ++ [step]⟩ [".."] = ⟨absolute, steps⟩ := by
  simp [along, advance, h.ne_dots]

/-- A relative path remembers how often it left its start. -/
theorem along_dots_ups (ups : Nat) :
    along ⟨false, List.replicate ups ".."⟩ [".."] = ⟨false, List.replicate (ups + 1) ".."⟩ := by
  cases ups with
  | zero => rfl
  | succ ups => simp [along, advance, List.replicate_succ, ← List.replicate_succ']

/-! ### Runs of steps -/

theorem along_names (path : Path) (h : ∀ name ∈ names, IsName name) :
    path.along names = ⟨path.absolute, path.steps ++ names⟩ := by
  induction names generalizing path with
  | nil => rw [along_nil, List.append_nil]
  | cons name names ih =>
    rw [List.forall_mem_cons] at h
    rw [along_cons, along_name path h.1, ih _ h.2, List.append_assoc, List.singleton_append]

/-- As many `..` as there were names lead back to where the names began. -/
theorem along_dots_names (h : ∀ name ∈ names, IsName name) :
    along ⟨absolute, steps ++ names⟩ (List.replicate names.length "..") = ⟨absolute, steps⟩ := by
  induction names using List.reverseRecOn with
  | nil => simp
  | append_singleton names name ih =>
    rw [List.forall_mem_append] at h
    rw [List.length_append, List.length_singleton, List.replicate_succ, along_cons,
      ← List.append_assoc, along_dots_name (h.2 name (List.mem_singleton_self name)), ih h.1]

theorem along_dots (ups : Nat) :
    (start false).along (List.replicate ups "..") = ⟨false, List.replicate ups ".."⟩ := by
  induction ups with
  | zero => rfl
  | succ ups ih => rw [List.replicate_succ', along_append, ih, along_dots_ups, List.replicate_succ']

/-- A step from below some ways up leaves these alone. -/
theorem advance_append_dots (place : List String) (ups : Nat) (step : String) :
    advance false (place ++ List.replicate ups "..") step =
      advance false place step ++ List.replicate ups ".." := by
  unfold advance
  split
  · rfl
  split
  · cases place with
    | nil => cases ups <;> simp [List.replicate_succ]
    | cons last before => by_cases hlast : last = ".." <;> simp [hlast]
  · rfl

/-- **Steps from below some ways up leave these alone.** -/
theorem along_dots_append (ups : Nat) (steps more : List String) :
    along ⟨false, List.replicate ups ".." ++ steps⟩ more =
      ⟨false, List.replicate ups ".." ++ (along ⟨false, steps⟩ more).steps⟩ := by
  have hfold (place : List String) :
      more.foldl (advance false) (place ++ List.replicate ups "..") =
        more.foldl (advance false) place ++ List.replicate ups ".." := by
    induction more generalizing place with
    | nil => rfl
    | cons step more ih =>
      rw [List.foldl_cons, List.foldl_cons, advance_append_dots, ih]
  unfold along
  simp only [List.reverse_append, List.reverse_replicate, hfold]

/-! ### Clean paths -/

/-- **How one step goes on along a clean path**: it stays, leads down, leads back from a name, stays
at the root, or leads up once more. -/
inductive GoesOn : Path → String → Path → Prop
  | stay {path : Path} {step : String} (h : step = "" ∨ step = ".") : GoesOn path step path
  | down {path : Path} {step : String} (h : IsName step) :
    GoesOn path step ⟨path.absolute, path.steps ++ [step]⟩
  | back {absolute : Bool} {front : List String} {name : String} (h : IsName name) :
    GoesOn ⟨absolute, front ++ [name]⟩ ".." ⟨absolute, front⟩
  | root : GoesOn (start true) ".." (start true)
  | up (ups : Nat) :
    GoesOn ⟨false, List.replicate ups ".."⟩ ".." ⟨false, List.replicate (ups + 1) ".."⟩

theorem isClean_start (absolute : Bool) : (start absolute).IsClean :=
  ⟨0, [], rfl, by simp, fun _ => rfl⟩

namespace IsClean

/-- The steps of a clean path are names, or lead up. -/
theorem eq_dots_or_isName (h : path.IsClean) (hs : step ∈ path.steps) :
    step = ".." ∨ IsName step := by
  obtain ⟨ups, names, heq, hn, -⟩ := h
  rw [heq, List.mem_append] at hs
  exact hs.imp List.eq_of_mem_replicate (hn step)

theorem isPlain (h : path.IsClean) (hs : step ∈ path.steps) : IsPlain step := by
  rcases h.eq_dots_or_isName hs with rfl | hn
  · exact ⟨by decide, by decide⟩
  · exact hn.plain

theorem ne_empty (h : path.IsClean) (hs : step ∈ path.steps) : step ≠ "" := by
  rcases h.eq_dots_or_isName hs with rfl | hn
  · decide
  · exact hn.ne_empty

/-- The way to a place on a clean path is clean. -/
theorem of_append {front rest : List String} (h : IsClean ⟨absolute, front ++ rest⟩) :
    IsClean ⟨absolute, front⟩ := by
  obtain ⟨ups, names, heq, hn, hroot⟩ := h
  rcases List.append_eq_append_iff.mp heq with ⟨more, hups, -⟩ | ⟨more, rfl, rfl⟩
  · obtain ⟨-, hfront, -⟩ := List.replicate_eq_append_iff.mp hups
    refine ⟨front.length, [], by rw [← hfront, List.append_nil], by simp, ?_⟩
    intro ha
    have hlength := congrArg List.length hups
    rw [List.length_replicate, hroot ha, List.length_append] at hlength
    show front.length = 0
    omega
  · exact ⟨ups, more, rfl, fun name hm => hn name (List.mem_append_left _ hm), hroot⟩

/-- **One plain step** goes on along a clean path in one of five ways. -/
theorem goesOn (h : path.IsClean) (hs : IsPlain step) : GoesOn path step (path.along [step]) := by
  by_cases hempty : step = ""
  · rw [hempty, along_empty]
    exact .stay (.inl rfl)
  by_cases hdot : step = "."
  · rw [hdot, along_dot]
    exact .stay (.inr rfl)
  by_cases hdots : step = ".."
  · rw [hdots]
    obtain ⟨absolute, steps⟩ := path
    obtain ⟨ups, names, heq, hn, hroot⟩ := h
    obtain rfl : steps = List.replicate ups ".." ++ names := heq
    induction names using List.reverseRecOn with
    | nil =>
      rw [List.append_nil]
      cases absolute with
      | true =>
        obtain rfl : ups = 0 := hroot rfl
        exact .root
      | false =>
        rw [along_dots_ups]
        exact .up ups
    | append_singleton names name =>
      rw [List.forall_mem_append] at hn
      have hname : IsName name := hn.2 name (List.mem_singleton_self name)
      rw [← List.append_assoc, along_dots_name hname]
      exact .back hname
  · have hname : IsName step := ⟨hs, hempty, hdot, hdots⟩
    rw [along_name _ hname]
    exact .down hname

/-- One plain step leads from a clean path to a clean path. -/
theorem along_singleton (h : path.IsClean) (hs : IsPlain step) : (path.along [step]).IsClean := by
  have hgoes := h.goesOn hs
  generalize path.along [step] = next at hgoes
  cases hgoes with
  | stay => exact h
  | down hname =>
    obtain ⟨ups, names, heq, hn, hroot⟩ := h
    refine ⟨ups, names ++ [step], ?_, ?_, hroot⟩
    · show path.steps ++ [step] = _
      rw [heq, List.append_assoc]
    · rw [List.forall_mem_append, List.forall_mem_singleton]
      exact ⟨hn, hname⟩
  | back => exact h.of_append
  | root => exact isClean_start true
  | up ups => exact ⟨ups + 1, [], (List.append_nil _).symm, by simp, by simp⟩

/-- **Plain steps lead from a clean path to a clean path.** -/
theorem along (h : path.IsClean) (hs : ∀ step ∈ steps, IsPlain step) :
    (path.along steps).IsClean := by
  induction steps generalizing path with
  | nil => rwa [along_nil]
  | cons step steps ih =>
    rw [List.forall_mem_cons] at hs
    rw [along_cons]
    exact ih (h.along_singleton hs.1) hs.2

/-- **A clean path is where its own steps lead.** -/
theorem eq_along (h : path.IsClean) : (start path.absolute).along path.steps = path := by
  obtain ⟨absolute, steps⟩ := path
  obtain ⟨ups, names, heq, hn, hroot⟩ := h
  obtain rfl : steps = List.replicate ups ".." ++ names := heq
  rw [along_append]
  cases absolute with
  | true =>
    obtain rfl : ups = 0 := hroot rfl
    exact along_names _ hn
  | false =>
    rw [along_dots]
    exact along_names _ hn

end IsClean

/-! ### Paths as texts -/

/-- What stands before the steps where a path is written: nothing between the root and its slash,
and a dot for a relative path that has no steps. -/
def preface : Path → List String
  | ⟨false, []⟩ => ["."]
  | ⟨false, _ :: _⟩ => []
  | ⟨true, []⟩ => ["", ""]
  | ⟨true, _ :: _⟩ => [""]

/-- The preface leads nowhere. -/
theorem along_preface (place path : Path) : place.along path.preface = place := by
  obtain ⟨_ | _, _ | _⟩ := path <;> exact along_nil place

theorem toText_absolute (steps : List String) :
    toText ⟨true, steps⟩ = "/" ++ "/".intercalate steps := rfl

namespace IsClean

/-- The steps of a clean path are found again between the slashes. -/
theorem split_intercalate (h : path.IsClean) (hne : path.steps ≠ []) :
    split '/' ("/".intercalate path.steps) = path.steps :=
  Text.split_intercalate toList_slash hne fun _ hs => (h.isPlain hs).1

theorem toText_eq_intercalate (h : IsClean ⟨false, steps⟩) (hne : steps ≠ []) :
    toText ⟨false, steps⟩ = "/".intercalate steps := by
  apply if_neg
  intro hempty
  have hsplit := h.split_intercalate hne
  rw [hempty] at hsplit
  exact h.ne_empty (hsplit ▸ List.mem_singleton_self "") rfl

/-- **The steps of a clean path** are what stands between the slashes of its text. -/
theorem split_toText (h : path.IsClean) : split '/' path.toText = path.preface ++ path.steps := by
  obtain ⟨absolute, _ | ⟨first, rest⟩⟩ := path
  · cases absolute <;> rfl
  · have hsplit : split '/' ("/".intercalate (first :: rest)) = first :: rest :=
      h.split_intercalate (List.cons_ne_nil _ _)
    cases absolute with
    | true =>
      rw [toText_absolute, split_slash_append, hsplit]
      rfl
    | false =>
      rw [h.toText_eq_intercalate (List.cons_ne_nil _ _), hsplit]
      rfl

theorem backslash_notMem_toText (h : path.IsClean) : '\\' ∉ path.toText.toList := by
  rw [← exists_mem_split_iff (by decide : '\\' ≠ '/'), h.split_toText]
  rintro ⟨step, hs, hb⟩
  rcases List.mem_append.mp hs with hpre | hs
  · obtain ⟨_ | _, _ | _⟩ := path <;> simp [preface] at hpre <;> simp [hpre] at hb
  · exact (h.isPlain hs).2 hb

/-- The text of a clean path begins at the root when the path does, whatever is added to it. -/
theorem hasFront_toText_append (h : path.IsClean) (s : String) :
    hasFront "/" (path.toText ++ "/" ++ s) = path.absolute := by
  rw [Bool.eq_iff_iff, hasFront_slash_iff, split_append toList_slash, h.split_toText]
  obtain ⟨_ | _, _ | ⟨first, rest⟩⟩ := path
  · simp [preface]
  · simp [preface, h.ne_empty List.mem_cons_self]
  · simp [preface]
  · simp [preface]

theorem hasFront_toText (h : path.IsClean) : hasFront "/" path.toText = path.absolute := by
  rw [Bool.eq_iff_iff, hasFront_slash_iff, h.split_toText]
  obtain ⟨_ | _, _ | ⟨first, rest⟩⟩ := path
  · simp [preface]
  · simp [preface, h.ne_empty List.mem_cons_self]
  · simp [preface]
  · simp [preface]

/-- **Joining goes along the joined path** from the directory. -/
theorem joinClean_toText (h : path.IsClean) (s : String) :
    joinClean path.toText s = (path.along (split '/' (slashed s))).toText := by
  unfold joinClean
  rw [slashed_eq_self h.backslash_notMem_toText, clean_eq_along]
  show Path.toText ((start (hasFront "/" _)).along (split '/' _)) = _
  rw [h.hasFront_toText_append, split_append toList_slash, h.split_toText, along_append,
    along_append, along_preface, h.eq_along]

/-- The steps in the text of a clean path lead along the path. -/
theorem along_split_toText (h : path.IsClean) :
    (start path.absolute).along (split '/' path.toText) = path := by
  rw [h.split_toText, along_append, along_preface, h.eq_along]

/-- The text of a clean path is clean. -/
theorem joinClean_start (h : path.IsClean) :
    joinClean (start path.absolute).toText path.toText = path.toText := by
  rw [(isClean_start _).joinClean_toText, slashed_eq_self h.backslash_notMem_toText,
    h.along_split_toText]

/-- **Clean paths are told apart by their texts.** -/
theorem toText_inj {other : Path} (h : path.IsClean) (ho : other.IsClean)
    (heq : path.toText = other.toText) : path = other := by
  have habsolute : path.absolute = other.absolute := by
    rw [← h.hasFront_toText, heq, ho.hasFront_toText]
  rw [← h.along_split_toText, heq, habsolute, ho.along_split_toText]

end IsClean

end Path

@[simp] theorem Path.toText_start_false : (Path.start false).toText = "." := rfl

@[simp] theorem Path.toText_start_true : (Path.start true).toText = "/" := rfl

theorem Path.toText_start (absolute : Bool) :
    (Path.start absolute).toText = if absolute then "/" else "." := by
  cases absolute <;> rfl

theorem joinClean_dot (file : String) :
    joinClean "." file = ((Path.start false).along (split '/' (slashed file))).toText := by
  rw [← Path.toText_start_false, (Path.isClean_start false).joinClean_toText]

/-- The text of a path in a directory. -/
def joined (dir file : String) : String :=
  slashed dir ++ "/" ++ slashed file

theorem backslash_notMem_joined (dir file : String) : '\\' ∉ (joined dir file).toList := by
  rw [joined, String.toList_append, String.toList_append, List.mem_append, List.mem_append]
  rintro ((h | h) | h)
  · exact backslash_notMem_slashed dir h
  · exact absurd h (by decide)
  · exact backslash_notMem_slashed file h

/-- The steps of a joined path are plain. -/
theorem isPlain_of_mem_steps_joined (dir file : String) :
    ∀ step ∈ (Path.ofText (joined dir file)).steps, IsPlain step := by
  intro step hs
  rw [Path.steps_ofText] at hs
  exact isPlain_of_mem_split (backslash_notMem_joined dir file) hs

theorem joinClean_eq_toText (dir file : String) :
    joinClean dir file = (Path.ofText (joined dir file)).clean.toText := rfl

/-- **Joining yields a clean path.** -/
theorem isClean_clean_joined (dir file : String) :
    (Path.ofText (joined dir file)).clean.IsClean := by
  rw [Path.clean_eq_along]
  exact (Path.isClean_start _).along (isPlain_of_mem_steps_joined dir file)

theorem exists_isClean_joinClean (dir file : String) :
    ∃ path : Path, path.IsClean ∧ path.absolute = hasFront "/" (joined dir file) ∧
      joinClean dir file = path.toText := by
  refine ⟨_, isClean_clean_joined dir file, ?_, joinClean_eq_toText dir file⟩
  rw [Path.absolute_clean, Path.absolute_ofText]

/-- What is seen from wherever the reader stands is a relative clean path. -/
theorem exists_isClean_joinClean_dot (file : String) :
    ∃ path : Path, path.IsClean ∧ path.absolute = false ∧ joinClean "." file = path.toText := by
  refine ⟨_, ?_, Path.absolute_along _ _, joinClean_dot file⟩
  apply (Path.isClean_start false).along
  intro step hs
  exact isPlain_of_mem_split (backslash_notMem_slashed file) hs

end ProtoClient
