import ProtoClient.Proofs.Choices

/-!
# Oneofs are collected in one pass

The oneofs of an object type can be found by going through its properties once: each property joins
the first oneof of its name, or begins a new one at the end. What is collected in this way is sorted
by the place of each name among the declarations. The sort is stable, so the oneofs that are not
declared, which have no place, stay in the order in which they were met, and stand in front. Both
ways yield the same list, also where names are declared twice or not at all.

## Main definitions

* `collectChoices properties`: the oneofs in the order in which one pass meets them
* `byRank rank`: the order of things by their ranks
* `place names name`: the place of a name in a list, zero for a name that is not there

## Main results

* `collectChoices_eq_map`: one pass finds each oneof in use once, with all its properties
* `mergeSort_eq_append`: a stable sort keeps what has the rank zero in front as it was
* `Message.choicesOf_eq_mergeSort`: the oneofs of an object type are those of the pass, sorted
-/

namespace ProtoClient

/-! ### Collecting in one pass -/

/-- The oneofs with a property more: in the first one of its name, or in a new one at the end. -/
def Choice.collect (name property : String) : List Choice → List Choice
  | [] => [⟨name, [property]⟩]
  | choice :: rest =>
    if choice.name = name then ⟨choice.name, choice.properties ++ [property]⟩ :: rest
    else choice :: collect name property rest

/-- **The oneofs of properties, collected in one pass.** -/
def collectChoices (properties : List Property) : List Choice :=
  properties.foldl (fun choices property =>
    match property.choice with
    | some name => Choice.collect name property.name choices
    | none => choices) []

/-- One more property in oneofs of different names. -/
theorem Choice.collect_map {names : List String} (hn : names.Nodup)
    (inside : String → List String) (name property : String) :
    collect name property (names.map fun other => ⟨other, inside other⟩) =
      if name ∈ names then
        names.map fun other =>
          ⟨other, if other = name then inside other ++ [property] else inside other⟩
      else (names.map fun other => ⟨other, inside other⟩) ++ [⟨name, [property]⟩] := by
  induction names with
  | nil => rfl
  | cons first rest ih =>
    obtain ⟨hfirst, hrest⟩ := List.nodup_cons.mp hn
    rw [List.map_cons, collect]
    by_cases heq : first = name
    · subst heq
      have hsame : rest.map (fun other => (⟨other, inside other⟩ : Choice)) = rest.map fun other =>
          ⟨other, if other = first then inside other ++ [property] else inside other⟩ := by
        refine List.map_congr_left fun other ho => ?_
        rw [if_neg (ne_of_mem_of_not_mem ho hfirst)]
      rw [if_pos rfl, if_pos List.mem_cons_self, List.map_cons, if_pos rfl, hsame]
    · rw [if_neg heq, ih hrest]
      by_cases hmem : name ∈ rest
      · rw [if_pos hmem, if_pos (List.mem_cons_of_mem _ hmem), List.map_cons, if_neg heq]
      · have hcons : name ∉ first :: rest := by simp [hmem, Ne.symm heq]
        rw [if_neg hmem, if_neg hcons, List.cons_append]

/-- **One pass finds each oneof in use**, in the order of their first properties. -/
theorem collectChoices_eq_map (properties : List Property) :
    collectChoices properties = (properties.filterMap Property.choice).eraseDups.map fun name =>
      ⟨name, (properties.filter (·.choice = some name)).map Property.name⟩ := by
  -- the induction is from the end, where the pass adds to what it has found
  induction properties using List.reverseRecOn with
  | nil => rfl
  | append_singleton properties property ih =>
    rw [collectChoices, List.foldl_append, ← collectChoices, List.foldl_cons, List.foldl_nil, ih]
    cases hc : property.choice with
    | none => simp [hc]
    | some name =>
      have hlast : [property].filterMap Property.choice = [name] := by simp [hc]
      have hinside (other : String) :
          ((properties ++ [property]).filter (·.choice = some other)).map Property.name =
            if other = name then
              (properties.filter (·.choice = some other)).map Property.name ++ [property.name]
            else (properties.filter (·.choice = some other)).map Property.name := by
        by_cases heq : other = name
        · simp [heq, hc]
        · simp [heq, hc, Ne.symm heq]
      dsimp only
      rw [Choice.collect_map (nodup_eraseDups _), List.filterMap_append, hlast, eraseDups_concat]
      simp only [List.mem_eraseDups, hinside]
      by_cases hmem : name ∈ properties.filterMap Property.choice
      · rw [if_pos hmem, if_pos hmem]
      · have hnone : properties.filter (·.choice = some name) = [] :=
          List.filter_eq_nil_iff.mpr fun other ho heq =>
            hmem (List.mem_filterMap.mpr ⟨other, ho, of_decide_eq_true heq⟩)
        have hold (other : String) (ho : other ∈ (properties.filterMap Property.choice).eraseDups) :
            other ≠ name :=
          ne_of_mem_of_not_mem (List.mem_eraseDups.mp ho) hmem
        rw [if_neg hmem, if_neg hmem, List.map_append, List.map_cons, List.map_nil, if_pos rfl,
          hnone]
        refine congrArg (· ++ _) (List.map_congr_left fun other ho => ?_)
        rw [if_neg (hold other ho)]

/-! ### Sorting by a rank -/

section Rank

variable {α : Type} {rank : α → Nat} {xs : List α}

/-- Whether the rank of something comes no later than that of another. -/
def byRank (rank : α → Nat) (x y : α) : Bool :=
  decide (rank x ≤ rank y)

theorem byRank_trans (x y z : α) (hxy : byRank rank x y = true) (hyz : byRank rank y z = true) :
    byRank rank x z = true :=
  decide_eq_true (Nat.le_trans (of_decide_eq_true hxy) (of_decide_eq_true hyz))

theorem byRank_total (x y : α) : (byRank rank x y || byRank rank y x) = true := by
  rcases Nat.le_total (rank x) (rank y) with h | h <;> simp [byRank, h]

/-- What is sorted by a rank has rising ranks. -/
theorem pairwise_mergeSort_byRank (rank : α → Nat) (xs : List α) :
    (xs.mergeSort (byRank rank)).Pairwise (rank · ≤ rank ·) :=
  (List.pairwise_mergeSort byRank_trans byRank_total xs).imp of_decide_eq_true

/-- A sort by a rank leaves what has the rank zero as it was: the sort is stable. -/
theorem filter_mergeSort_byRank (rank : α → Nat) (xs : List α) :
    (xs.mergeSort (byRank rank)).filter (rank · = 0) = xs.filter (rank · = 0) := by
  have hzero : (xs.filter (rank · = 0)).Pairwise (byRank rank · · = true) := by
    refine List.pairwise_of_forall_mem_list fun x hx y _ => ?_
    have hx0 : rank x = 0 := of_decide_eq_true (List.mem_filter.mp hx).2
    simp [byRank, hx0]
  have hsub := (List.sublist_mergeSort byRank_trans byRank_total hzero
    List.filter_sublist).filter (rank · = 0)
  simp only [List.filter_filter, Bool.and_self] at hsub
  exact (hsub.eq_of_length ((List.mergeSort_perm xs _).filter _).length_eq.symm).symm

/-- Rising ranks begin with those that are zero. -/
theorem filter_append_of_pairwise (h : xs.Pairwise (rank · ≤ rank ·)) :
    xs.filter (rank · = 0) ++ xs.filter (rank · ≠ 0) = xs := by
  induction h with
  | nil => rfl
  | @cons x xs hx _ ih =>
    by_cases hzero : rank x = 0
    · simpa [hzero] using ih
    · have hnone : xs.filter (rank · = 0) = [] :=
        List.filter_eq_nil_iff.mpr fun y hy heq =>
          hzero (Nat.le_zero.mp (of_decide_eq_true heq ▸ hx y hy))
      rw [hnone] at ih
      simpa [hzero, hnone] using ih

/-- **A stable sort by a rank** leaves what has the rank zero as it was in front, and puts what has
ranks of its own in their order behind it. -/
theorem mergeSort_eq_append {back : List α} (hback : back.Pairwise (rank · < rank ·))
    (hp : back.Perm (xs.filter (rank · ≠ 0))) :
    xs.mergeSort (byRank rank) = xs.filter (rank · = 0) ++ back := by
  have hsorted := pairwise_mergeSort_byRank rank xs
  have hperm : ((xs.mergeSort (byRank rank)).filter (rank · ≠ 0)).Perm back :=
    ((List.mergeSort_perm xs _).filter _).trans hp.symm
  have hrest : (xs.mergeSort (byRank rank)).filter (rank · ≠ 0) = back := by
    have hinj : (back.map rank).Nodup := List.pairwise_map.mpr (hback.imp Nat.ne_of_lt)
    refine List.Perm.eq_of_pairwise ?_ (hsorted.sublist List.filter_sublist)
      (hback.imp Nat.le_of_lt) hperm
    intro x y hx hy hle hge
    exact List.inj_on_of_nodup_map hinj (hperm.subset hx) hy (Nat.le_antisymm hle hge)
  rw [← filter_mergeSort_byRank, ← hrest, filter_append_of_pairwise hsorted]

end Rank

/-! ### Sorting by declarations -/

/-- The place of a name in a list, counted from one; a name that is not in the list has the place
zero. -/
def place (names : List String) (name : String) : Nat :=
  if name ∈ names then names.idxOf name + 1 else 0

theorem place_eq_zero_iff {names : List String} {name : String} :
    place names name = 0 ↔ name ∉ names := by
  by_cases hmem : name ∈ names <;> simp [place, hmem]

/-- The first occurrences of names stand in the order of their places. -/
theorem pairwise_place_eraseDups (names : List String) :
    names.eraseDups.Pairwise (place names · < place names ·) := by
  induction names using List.reverseRecOn with
  | nil => exact .nil
  | append_singleton names name ih =>
    have hplace : ∀ other ∈ names, place (names ++ [name]) other = place names other := by
      intro other ho
      rw [place, place, if_pos ho, if_pos (List.mem_append_left _ ho), List.idxOf_append_of_mem ho]
    have hfront : names.eraseDups.Pairwise
        (place (names ++ [name]) · < place (names ++ [name]) ·) := by
      refine ih.imp_of_mem fun {first second} hfirst hsecond hlt => ?_
      rwa [hplace _ (List.mem_eraseDups.mp hfirst), hplace _ (List.mem_eraseDups.mp hsecond)]
    rw [eraseDups_concat]
    by_cases hm : name ∈ names
    · rwa [if_pos hm]
    · rw [if_neg hm]
      refine List.pairwise_append.mpr ⟨hfront, List.pairwise_singleton .., ?_⟩
      intro other ho last hlast
      obtain rfl := List.mem_singleton.mp hlast
      have hother := List.mem_eraseDups.mp ho
      have hlt := List.idxOf_lt_length_of_mem hother
      rw [hplace _ hother, place, place, if_pos hother, if_pos (by simp),
        List.idxOf_append_of_notMem hm]
      omega

/-- **The oneofs of an object type** are those that one pass collects, sorted by their declarations:
stably, and what is not declared in front. -/
theorem Message.choicesOf_eq_mergeSort (message : Message) (properties : List Property) :
    message.choicesOf properties =
      (collectChoices properties).mergeSort (byRank fun choice =>
        place message.choices choice.name) := by
  rw [collectChoices_eq_map, choicesOf_eq_map, choiceNames]
  have hused : ((properties.filterMap Property.choice).eraseDups).Nodup := nodup_eraseDups _
  generalize (properties.filterMap Property.choice).eraseDups = used at hused
  generalize hinside : (fun name => (⟨name,
    (properties.filter (·.choice = some name)).map Property.name⟩ : Choice)) = inside
  have hname (name : String) : (inside name).name = name := by rw [← hinside]
  have hfilter (p : Nat → Bool) :
      (used.map inside).filter (fun choice => p (place message.choices choice.name)) =
        (used.filter fun name => p (place message.choices name)).map inside := by
    rw [List.filter_map]
    simp only [Function.comp_def, hname]
  have hback : ((message.choices.eraseDups.filter (used.contains ·)).map inside).Pairwise
      (place message.choices ·.name < place message.choices ·.name) := by
    rw [List.pairwise_map]
    simp only [hname]
    exact (pairwise_place_eraseDups _).sublist List.filter_sublist
  have hperm : ((message.choices.eraseDups.filter (used.contains ·)).map inside).Perm
      ((used.map inside).filter fun choice => place message.choices choice.name ≠ 0) := by
    rw [hfilter fun n => decide (n ≠ 0)]
    refine ((List.perm_ext_iff_of_nodup ((nodup_eraseDups _).filter _)
      (hused.filter _)).mpr fun name => ?_).map inside
    simp [place_eq_zero_iff, and_comm]
  have hfront : (used.map inside).filter (fun choice => place message.choices choice.name = 0) =
      (used.filter (!message.choices.contains ·)).map inside := by
    rw [hfilter fun n => decide (n = 0)]
    refine congrArg _ (List.filter_congr fun name _ => ?_)
    simp [place_eq_zero_iff]
  rw [mergeSort_eq_append hback hperm, hfront, List.map_append]

end ProtoClient
