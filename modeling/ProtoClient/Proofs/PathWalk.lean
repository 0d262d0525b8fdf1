import ProtoClient.Proofs.Path

/-!
# Where clean paths lead

Cleaning a path keeps where it leads, from the root or from any place. A clean path is moreover the
only one that leads there: two paths are cleaned to the same text when they lead to the same place
from everywhere, or from all places that are deep enough.

## Main definitions

* `stepsOf text`: the steps of a path behind its root
* `Path.IsStart absolute depth place`: a path may be walked from the place
* `IsCleaned text result`: the path is written without steps that stay and without detours

## Main results

* `Path.IsClean.walk_along`: going on along a clean path leads where its walk goes on to
* `Path.IsClean.eq_of_walk_eq`: clean paths that lead to the same places are equal
* `isCleaned_joinClean`: joining cleans the joined text
* `joinClean_eq_iff_walk_eq`: paths are joined to the same text when they lead to the same places
* `joinClean_canonical`: joining yields the canonical form of a path
-/

namespace ProtoClient

open Text

namespace Path

variable {absolute : Bool} {path other : Path} {steps names place : List String} {step : String}

/-! ### Walks -/

theorem follow_of_stay (h : step = "" ∨ step = ".") : follow place step = place :=
  if_pos h

@[simp] theorem follow_dots (place : List String) : follow place ".." = place.dropLast := rfl

theorem follow_name (h : IsName step) (place : List String) :
    follow place step = place ++ [step] := by
  rw [follow, if_neg (not_or.mpr ⟨h.ne_empty, h.ne_dot⟩), if_neg h.ne_dots]

/-- A walk along names leads down. -/
theorem walk_names (h : ∀ name ∈ names, IsName name) (place : List String) :
    walk place names = place ++ names := by
  induction names generalizing place with
  | nil => rw [walk_nil, List.append_nil]
  | cons name names ih =>
    rw [List.forall_mem_cons] at h
    rw [walk_cons, follow_name h.1, ih h.2, List.append_assoc, List.singleton_append]

/-- A walk up leads to the front of a place. -/
theorem walk_dots (ups : Nat) (place : List String) :
    walk place (List.replicate ups "..") = place.take (place.length - ups) := by
  induction ups generalizing place with
  | zero => rw [List.replicate_zero, walk_nil, Nat.sub_zero, List.take_length]
  | succ ups ih =>
    rw [List.replicate_succ, walk_cons, ih, follow_dots, List.length_dropLast,
      List.dropLast_eq_take, List.take_take]
    congr 1
    omega

/-- The preface of a path does not lead away. -/
@[simp] theorem walk_preface (place : List String) (path : Path) :
    walk place path.preface = place := by
  obtain ⟨_ | _, _ | _⟩ := path <;> rfl

/-- A step leads on along a clean path where the walk goes on to. -/
theorem GoesOn.walk_eq (h : GoesOn path step other) (hp : path.absolute = true → place = []) :
    walk place other.steps = follow (walk place path.steps) step := by
  cases h with
  | stay hstay => rw [follow_of_stay hstay]
  | down hname => rw [walk_append]; rfl
  | back hname =>
    rw [walk_append, walk_cons, walk_nil, follow_name hname, follow_dots, List.dropLast_concat]
  | root =>
    rw [hp rfl]
    rfl
  | up ups => rw [List.replicate_succ', walk_append]; rfl

namespace IsClean

/-- **Going on along a clean path leads where its walk goes on to**, from the root or from any
place. -/
theorem walk_along (h : path.IsClean) (hs : ∀ step ∈ steps, IsPlain step)
    (hp : path.absolute = true → place = []) :
    walk place (path.along steps).steps = walk (walk place path.steps) steps := by
  induction steps generalizing path with
  | nil => rw [along_nil, walk_nil]
  | cons step steps ih =>
    rw [List.forall_mem_cons] at hs
    rw [along_cons, ih (h.along_singleton hs.1) hs.2 hp, (h.goesOn hs.1).walk_eq hp, walk_cons]

end IsClean

/-- **A clean path leads where the path does.** -/
theorem walk_clean (hs : ∀ step ∈ path.steps, IsPlain step)
    (hp : path.absolute = true → place = []) :
    walk place path.clean.steps = walk place path.steps := by
  rw [clean_eq_along]
  exact (isClean_start path.absolute).walk_along hs hp

/-! ### Places that tell paths apart -/

/-- **A start of paths**: the root for those that begin there, and for others a place of some
depth. -/
def IsStart (absolute : Bool) (depth : Nat) (place : List String) : Prop :=
  (∀ name ∈ place, IsName name) ∧ if absolute then place = [] else depth ≤ place.length

theorem IsStart.eq_nil {depth : Nat} (h : IsStart absolute depth place) :
    absolute = true → place = [] := by
  rintro rfl
  exact h.2

theorem isStart_root (depth : Nat) : IsStart true depth [] :=
  ⟨by simp, rfl⟩

theorem isStart_replicate {name : String} (h : IsName name) {depth length : Nat}
    (hl : depth ≤ length) : IsStart false depth (List.replicate length name) := by
  refine ⟨fun other ho => ?_, ?_⟩
  · rwa [List.eq_of_mem_replicate ho]
  · show depth ≤ (List.replicate length name).length
    rwa [List.length_replicate]

/-- A walk from a place of equal names keeps some of them, if there are enough. -/
theorem walk_replicate (h : ∀ name ∈ names, IsName name) (name : String) (ups length : Nat) :
    walk (List.replicate length name) (List.replicate ups ".." ++ names) =
      List.replicate (length - ups) name ++ names := by
  rw [walk_append, walk_dots, walk_names h, List.length_replicate, List.take_replicate,
    Nat.min_eq_left (Nat.sub_le length ups)]

theorem isName_a : IsName "a" := ⟨⟨by decide, by decide⟩, by decide, by decide, by decide⟩

theorem isName_b : IsName "b" := ⟨⟨by decide, by decide⟩, by decide, by decide, by decide⟩

/-- What more equal names stand in front of begins with that name. -/
theorem head?_of_replicate_append_eq {name : String} {few many : Nat} (hlt : few < many)
    (heq : List.replicate many name ++ steps = List.replicate few name ++ names) :
    names.head? = some name := by
  have hdrop := congrArg (List.drop few) heq
  rw [List.drop_append_of_le_length (by rw [List.length_replicate]; omega), List.drop_replicate,
    List.drop_left' List.length_replicate] at hdrop
  obtain ⟨more, hmore⟩ : ∃ more, many - few = more + 1 := ⟨many - few - 1, by omega⟩
  rw [← hdrop, hmore, List.replicate_succ, List.cons_append, List.head?_cons]

/-- Different names in front of the same steps cannot be told apart only if there are as many of
them on both sides. -/
theorem not_lt_of_replicate_append_eq {few many : Nat}
    (h : ∀ name, IsName name →
      List.replicate many name ++ steps = List.replicate few name ++ names) : ¬few < many := by
  intro hlt
  have ha := head?_of_replicate_append_eq hlt (h "a" isName_a)
  have hb := head?_of_replicate_append_eq hlt (h "b" isName_b)
  exact absurd (Option.some.inj (ha.symm.trans hb)) (by decide)

/-- **Clean paths that lead to the same places are equal.** -/
theorem IsClean.eq_of_walk_eq (h : path.IsClean) (ho : other.IsClean)
    (ha : path.absolute = other.absolute) {depth : Nat}
    (hw : ∀ place, IsStart path.absolute depth place →
      walk place path.steps = walk place other.steps) : path = other := by
  obtain ⟨absolute, steps⟩ := path
  obtain ⟨_, others⟩ := other
  obtain rfl := ha
  obtain ⟨ups, names, heq, hn, hroot⟩ := h
  obtain ⟨ups', names', heq', hn', hroot'⟩ := ho
  obtain rfl : steps = List.replicate ups ".." ++ names := heq
  obtain rfl : others = List.replicate ups' ".." ++ names' := heq'
  cases absolute with
  | true =>
    obtain rfl : ups = 0 := hroot rfl
    obtain rfl : ups' = 0 := hroot' rfl
    have hwalk := hw [] (isStart_root depth)
    change walk [] names = walk [] names' at hwalk
    rw [walk_names hn, walk_names hn', List.nil_append, List.nil_append] at hwalk
    rw [hwalk]
  | false =>
    have hwalk (name : String) (hname : IsName name) :
        List.replicate (depth + ups + ups' - ups) name ++ names =
          List.replicate (depth + ups + ups' - ups') name ++ names' := by
      rw [← walk_replicate hn, ← walk_replicate hn']
      exact hw _ (isStart_replicate hname (by omega))
    have hle := not_lt_of_replicate_append_eq hwalk
    have hge := not_lt_of_replicate_append_eq fun name hname => (hwalk name hname).symm
    obtain rfl : ups = ups' := by omega
    rw [List.append_cancel_left (hwalk "a" isName_a)]

end Path

/-! ### Joined paths -/

/-- **The steps of a path** behind its root, if it begins there. -/
def stepsOf (text : String) : List String :=
  if hasFront "/" text then (split '/' text).tail else split '/' text

/-- **The result is the cleaned form of a text**: it begins at the root when the text does, no step
of it stays, it leads up only in front, and it leads where the text does. -/
structure IsCleaned (text result : String) : Prop where
  root : hasFront "/" result = hasFront "/" text
  moves : result ≠ "." → result ≠ "/" → ∀ step ∈ stepsOf result, step ≠ "" ∧ step ≠ "."
  ups : ∃ ups rest, stepsOf result = List.replicate ups ".." ++ rest ∧ ".." ∉ rest ∧
    (hasFront "/" result = true → ups = 0)
  walk : ∀ place, (hasFront "/" text = true → place = []) →
    Path.walk place (stepsOf result) = Path.walk place (stepsOf text)
  again : joinClean (if hasFront "/" text then "/" else ".") result = result

/-- The root of a path does not lead away. -/
theorem walk_stepsOf (place : List String) (text : String) :
    Path.walk place (stepsOf text) = Path.walk place (split '/' text) := by
  unfold stepsOf
  split
  · next h =>
    obtain ⟨rest, hs, -⟩ := hasFront_slash_iff.mp h
    rw [hs]
    rfl
  · rfl

namespace Path.IsClean

variable {path : Path}

/-- The steps of a clean path are those of its text, which is a dot or the root if there are
none. -/
theorem stepsOf_toText (h : path.IsClean) :
    stepsOf path.toText = path.steps ∨ path = start path.absolute := by
  unfold stepsOf
  rw [h.hasFront_toText, h.split_toText]
  obtain ⟨_ | _, _ | _⟩ := path
  · exact .inr rfl
  · exact .inl rfl
  · exact .inr rfl
  · exact .inl rfl

theorem ne_dot_of_mem (h : path.IsClean) {step : String} (hs : step ∈ path.steps) :
    step ≠ "." := by
  rcases h.eq_dots_or_isName hs with rfl | hname
  · decide
  · exact hname.ne_dot

/-- The steps of a clean path do not stay, unless there are none. -/
theorem moves_of_mem_stepsOf (h : path.IsClean) (hdot : path.toText ≠ ".")
    (hroot : path.toText ≠ "/") {step : String} (hs : step ∈ stepsOf path.toText) :
    step ≠ "" ∧ step ≠ "." := by
  rcases h.stepsOf_toText with hsteps | hstart
  · rw [hsteps] at hs
    exact ⟨h.ne_empty hs, h.ne_dot_of_mem hs⟩
  · rw [hstart] at hdot hroot
    cases habsolute : path.absolute with
    | false => exact absurd (habsolute ▸ toText_start_false) hdot
    | true => exact absurd (habsolute ▸ toText_start_true) hroot

/-- A clean path leads up in front only, and not from the root. -/
theorem exists_stepsOf_eq (h : path.IsClean) :
    ∃ ups rest, stepsOf path.toText = List.replicate ups ".." ++ rest ∧ ".." ∉ rest ∧
      (path.absolute = true → ups = 0) := by
  rcases h.stepsOf_toText with hsteps | hstart
  · obtain ⟨ups, names, heq, hn, hroot⟩ := h
    refine ⟨ups, names, hsteps.trans heq, ?_, hroot⟩
    intro hdots
    exact (hn _ hdots).ne_dots rfl
  · rw [hstart]
    cases path.absolute with
    | false => exact ⟨0, ["."], rfl, by decide, fun _ => rfl⟩
    | true => exact ⟨0, [""], rfl, by decide, fun _ => rfl⟩

end Path.IsClean

section Joined

variable (dir file : String) {place : List String}

theorem walk_clean_joined (hp : hasFront "/" (joined dir file) = true → place = []) :
    Path.walk place (Path.ofText (joined dir file)).clean.steps =
      Path.walk place (stepsOf (joined dir file)) := by
  have hstart : (Path.ofText (joined dir file)).absolute = true → place = [] := by
    rwa [Path.absolute_ofText]
  rw [walk_stepsOf, Path.walk_clean (isPlain_of_mem_steps_joined dir file) hstart,
    Path.steps_ofText]

/-- Joining leads where the joined text does. -/
theorem walk_joinClean (hp : hasFront "/" (joined dir file) = true → place = []) :
    Path.walk place (stepsOf (joinClean dir file)) =
      Path.walk place (stepsOf (joined dir file)) := by
  rw [walk_stepsOf, joinClean_eq_toText, (isClean_clean_joined dir file).split_toText,
    Path.walk_append, Path.walk_preface, walk_clean_joined dir file hp]

/-- **Joining cleans the joined text.** -/
theorem isCleaned_joinClean :
    IsCleaned (joined dir file) (joinClean dir file) := by
  have hwalk := @walk_joinClean dir file
  have hclean := isClean_clean_joined dir file
  have habsolute := Path.absolute_clean (Path.ofText (joined dir file))
  rw [Path.absolute_ofText] at habsolute
  rw [joinClean_eq_toText] at hwalk ⊢
  generalize (Path.ofText (joined dir file)).clean = path at hwalk hclean habsolute ⊢
  refine ⟨?_, fun hdot hroot step hs => hclean.moves_of_mem_stepsOf hdot hroot hs, ?_,
    fun place hp => hwalk hp, ?_⟩
  · rw [hclean.hasFront_toText, habsolute]
  · rw [hclean.hasFront_toText]
    exact hclean.exists_stepsOf_eq
  · have hstart := hclean.joinClean_start
    rwa [Path.toText_start, habsolute] at hstart

end Joined

/-- **Paths are joined to the same text when they begin at the same place and lead to the same
places** from there. -/
theorem joinClean_eq_iff_walk_eq (dir file dir' file' : String) (depth : Nat) :
    joinClean dir file = joinClean dir' file' ↔
      hasFront "/" (joined dir file) = hasFront "/" (joined dir' file') ∧
        ∀ place, Path.IsStart (hasFront "/" (joined dir file)) depth place →
          Path.walk place (stepsOf (joined dir file)) =
            Path.walk place (stepsOf (joined dir' file')) := by
  constructor
  · intro heq
    have hroot : hasFront "/" (joined dir file) = hasFront "/" (joined dir' file') := by
      rw [← (isCleaned_joinClean dir file).root, heq, (isCleaned_joinClean dir' file').root]
    refine ⟨hroot, fun place hp => ?_⟩
    rw [← walk_joinClean dir file hp.eq_nil, heq, walk_joinClean dir' file' (hroot ▸ hp.eq_nil)]
  · rintro ⟨hroot, hwalk⟩
    have hclean := isClean_clean_joined dir file
    have hclean' := isClean_clean_joined dir' file'
    rw [joinClean_eq_toText, joinClean_eq_toText]
    refine congrArg Path.toText
      (hclean.eq_of_walk_eq hclean' ?_ fun place (hp : Path.IsStart _ depth place) => ?_)
    · rw [Path.absolute_clean, Path.absolute_clean, Path.absolute_ofText, Path.absolute_ofText,
        hroot]
    · rw [Path.absolute_clean, Path.absolute_ofText] at hp
      rw [walk_clean_joined dir file hp.eq_nil, hwalk place hp,
        walk_clean_joined dir' file' (hroot ▸ hp.eq_nil)]

/-- **Joining yields the canonical form of a path**: what is joined is cleaned, and no other clean
text leads to the same places. -/
theorem joinClean_canonical (dir file : String) :
    IsCleaned (joined dir file) (joinClean dir file) ∧
      ∀ dir' file' depth, joinClean dir file = joinClean dir' file' ↔
        hasFront "/" (joined dir file) = hasFront "/" (joined dir' file') ∧
          ∀ place, Path.IsStart (hasFront "/" (joined dir file)) depth place →
            Path.walk place (stepsOf (joined dir file)) =
              Path.walk place (stepsOf (joined dir' file')) :=
  ⟨isCleaned_joinClean dir file, joinClean_eq_iff_walk_eq dir file⟩

/-- A detour is cut, and what leads up from the root stays there. -/
example : joinClean "./gen//a/.." "../../x.ts" = "../x.ts" ∧ joinClean "/.." "a/." = "/a" := by
  decide +kernel

end ProtoClient
