/-!
# Maps from names, and sets of names

Wherever an answer shows a collection that is looked up by name, it shows it in the order of the
names, by code point. `NameMap` is a finite map kept in this order, so two maps with the same
look-ups are equal; `sortNames` is the same for sets.

## Main definitions

* `NameMap α`: finite maps from strings, strictly increasing in the key
* `NameMap.get?`, `NameMap.insert`, `NameMap.ofList`, `NameMap.erase`
* `sortNames names`: the distinct names in increasing order

## Main results

* `NameMap.get?_insert`: insertion is seen at its key only
* `NameMap.ext_get?`: a map is determined by its look-ups
* `NameMap.get?_ofList_eq_some_iff`: the map of a list has the last value of each name
* `NameMap.ofList_eq_of_perm`: the entries of a map make it up, in whatever order
* `mem_sortNames`, `pairwise_sortNames`: the sorted names are the names, strictly increasing
-/

namespace ProtoClient

/-- Two lists that increase strictly and have the same members are equal. -/
theorem eq_of_increasing {β : Type} {r : β → β → Prop} (hasymm : ∀ a b, r a b → ¬r b a)
    {xs ys : List β} (hx : xs.Pairwise r) (hy : ys.Pairwise r) (hsame : ∀ b, b ∈ xs ↔ b ∈ ys) :
    xs = ys := by
  induction xs generalizing ys with
  | nil =>
    cases ys with
    | nil => rfl
    | cons y ys => simpa using (hsame y).mpr List.mem_cons_self
  | cons x xs ih =>
    cases ys with
    | nil => simpa using (hsame x).mp List.mem_cons_self
    | cons y ys =>
      obtain ⟨hx', hxs⟩ := List.pairwise_cons.mp hx
      obtain ⟨hy', hys⟩ := List.pairwise_cons.mp hy
      have hhead : x = y := by
        rcases List.mem_cons.mp ((hsame x).mp List.mem_cons_self) with heq | hin
        · exact heq
        · rcases List.mem_cons.mp ((hsame y).mpr List.mem_cons_self) with heq | hin'
          · exact heq.symm
          · exact absurd (hx' y hin') (hasymm _ _ (hy' x hin))
      subst hhead
      refine congrArg (x :: ·) (ih hxs hys fun b => ⟨fun hmem => ?_, fun hmem => ?_⟩)
      · refine (List.mem_cons.mp ((hsame b).mp (List.mem_cons_of_mem _ hmem))).resolve_left ?_
        rintro rfl
        exact hasymm _ _ (hx' b hmem) (hx' b hmem)
      · refine (List.mem_cons.mp ((hsame b).mpr (List.mem_cons_of_mem _ hmem))).resolve_left ?_
        rintro rfl
        exact hasymm _ _ (hy' b hmem) (hy' b hmem)

/-- What stands behind a member of a list stands before it in the reversed list. -/
theorem exists_reverse_eq_iff {β : Type} {xs : List β} {x : β} {p : β → Prop} :
    (∃ front back, xs.reverse = front ++ x :: back ∧ ∀ y ∈ front, p y) ↔
      ∃ front back, xs = front ++ x :: back ∧ ∀ y ∈ back, p y := by
  constructor
  · rintro ⟨behind, before, hsplit, hp⟩
    refine ⟨before.reverse, behind.reverse, ?_, fun y hmem => ?_⟩
    · rw [← List.reverse_reverse xs, hsplit]
      simp
    · exact hp y (List.mem_reverse.mp hmem)
  · rintro ⟨front, back, rfl, hp⟩
    refine ⟨back.reverse, front.reverse, by simp, fun y hmem => ?_⟩
    exact hp y (List.mem_reverse.mp hmem)

/-- **Maps from names**: entries strictly increasing in the name. -/
structure NameMap (α : Type) where
  entries : List (String × α)
  increasing : entries.Pairwise (fun a b => a.1 < b.1)

namespace NameMap

variable {α : Type}

/-- The map without entries. -/
def empty : NameMap α := ⟨[], .nil⟩

instance : Inhabited (NameMap α) := ⟨empty⟩

/-- The value under a name. -/
def get? (map : NameMap α) (name : String) : Option α :=
  map.entries.lookup name

/-- The values of the map, in the order of their names. -/
def values (map : NameMap α) : List α :=
  map.entries.map Prod.snd

/-- The number of entries. -/
def size (map : NameMap α) : Nat :=
  map.entries.length

/-- The entry put where its name belongs, in place of an earlier one of that name. -/
def insertEntry (name : String) (value : α) : List (String × α) → List (String × α)
  | [] => [(name, value)]
  | entry :: rest =>
    if name < entry.1 then (name, value) :: entry :: rest
    else if name = entry.1 then (name, value) :: rest
    else entry :: insertEntry name value rest

theorem mem_insertEntry {name : String} {value : α} {entries : List (String × α)}
    {entry : String × α} (h : entry ∈ insertEntry name value entries) :
    entry = (name, value) ∨ entry ∈ entries := by
  induction entries with
  | nil => simpa [insertEntry] using h
  | cons first rest ih =>
    rw [insertEntry] at h
    split at h
    · simpa using h
    · split at h
      · rcases List.mem_cons.mp h with rfl | h
        · exact .inl rfl
        · exact .inr (List.mem_cons_of_mem _ h)
      · rcases List.mem_cons.mp h with rfl | h
        · exact .inr List.mem_cons_self
        · exact (ih h).imp id (List.mem_cons_of_mem _)

theorem pairwise_insertEntry (name : String) (value : α) {entries : List (String × α)}
    (h : entries.Pairwise (fun a b => a.1 < b.1)) :
    (insertEntry name value entries).Pairwise (fun a b => a.1 < b.1) := by
  induction entries with
  | nil => simp [insertEntry]
  | cons first rest ih =>
    obtain ⟨hafter, h⟩ := List.pairwise_cons.mp h
    rw [insertEntry]
    split
    · next hlt =>
      refine List.pairwise_cons.mpr ⟨fun entry hmem => ?_, List.pairwise_cons.mpr ⟨hafter, h⟩⟩
      rcases List.mem_cons.mp hmem with rfl | hmem
      · exact hlt
      · exact String.lt_trans hlt (hafter entry hmem)
    · split
      · next hsame =>
        exact List.pairwise_cons.mpr ⟨fun entry hmem => hsame ▸ hafter entry hmem, h⟩
      · next hnlt hne =>
        refine List.pairwise_cons.mpr ⟨fun entry hmem => ?_, ih h⟩
        rcases mem_insertEntry hmem with rfl | hmem
        · have := Std.lt_trichotomy name first.1
          grind
        · exact hafter entry hmem

/-- The value put under the name, in place of an earlier one. -/
def insert (map : NameMap α) (name : String) (value : α) : NameMap α :=
  ⟨insertEntry name value map.entries, pairwise_insertEntry name value map.increasing⟩

/-- The map without the entry of that name. -/
def erase (map : NameMap α) (name : String) : NameMap α :=
  ⟨map.entries.filter fun entry => entry.1 ≠ name, map.increasing.filter _⟩

/-- The map of a list of entries; of several under one name the last counts. -/
def ofList (entries : List (String × α)) : NameMap α :=
  entries.foldl (fun map entry => map.insert entry.1 entry.2) empty

@[simp] theorem get?_empty (name : String) : (empty : NameMap α).get? name = none := rfl

theorem lookup_cons_eq_ite (wanted : String) (entry : String × α) (entries : List (String × α)) :
    (entry :: entries).lookup wanted =
      if wanted = entry.1 then some entry.2 else entries.lookup wanted := by
  rw [List.lookup_cons]
  by_cases h : wanted = entry.1
  · simp [h]
  · have h' : (wanted == entry.1) = false := by simpa using h
    simp [h, h']

theorem lookup_insertEntry (name : String) (value : α) (entries : List (String × α))
    (wanted : String) :
    (insertEntry name value entries).lookup wanted =
      if wanted = name then some value else entries.lookup wanted := by
  induction entries with
  | nil => simp [insertEntry, lookup_cons_eq_ite]
  | cons first rest ih =>
    rw [insertEntry]
    split
    · simp only [lookup_cons_eq_ite]
    · split
      · next hsame => grind [lookup_cons_eq_ite]
      · next hne => grind [lookup_cons_eq_ite]

/-- Insertion is seen at its key only. -/
theorem get?_insert (map : NameMap α) (name : String) (value : α) (wanted : String) :
    (map.insert name value).get? wanted = if wanted = name then some value else map.get? wanted :=
  lookup_insertEntry name value map.entries wanted

theorem lookup_eq_some_iff {entries : List (String × α)}
    (h : entries.Pairwise (fun a b => a.1 < b.1)) {name : String} {value : α} :
    entries.lookup name = some value ↔ (name, value) ∈ entries := by
  induction entries with
  | nil => simp
  | cons first rest ih =>
    obtain ⟨hafter, h⟩ := List.pairwise_cons.mp h
    rw [lookup_cons_eq_ite, List.mem_cons]
    split
    · next hsame =>
      have habsent : (name, value) ∉ rest := fun hmem =>
        String.lt_irrefl _ (hsame ▸ hafter _ hmem)
      constructor
      · rintro heq
        exact .inl (Prod.ext hsame (Option.some.inj heq).symm)
      · rintro (heq | hmem)
        · exact congrArg (some ·.2) heq.symm
        · exact absurd hmem habsent
    · next hne =>
      rw [ih h]
      refine ⟨.inr, fun hfound => hfound.resolve_left ?_⟩
      exact fun heq => hne (congrArg Prod.fst heq)

/-- The value under a name is the one its entry has. -/
theorem get?_eq_some_iff {map : NameMap α} {name : String} {value : α} :
    map.get? name = some value ↔ (name, value) ∈ map.entries :=
  lookup_eq_some_iff map.increasing

/-- A map is determined by its look-ups. -/
theorem ext_get? {map map' : NameMap α} (h : ∀ name, map.get? name = map'.get? name) :
    map = map' := by
  have : map.entries = map'.entries :=
    eq_of_increasing (fun _ _ => String.lt_asymm) map.increasing map'.increasing
      fun entry => by rw [← get?_eq_some_iff, ← get?_eq_some_iff, h]
  cases map
  cases map'
  simp_all

/-- Entries inserted one after the other are seen from the last to the first, and behind them the
map they were inserted into. -/
theorem get?_foldl_insert (entries : List (String × α)) (map : NameMap α) (name : String) :
    (entries.foldl (fun map entry => map.insert entry.1 entry.2) map).get? name =
      (entries.reverse.lookup name).or (map.get? name) := by
  induction entries generalizing map with
  | nil => rfl
  | cons entry rest ih =>
    rw [List.foldl_cons, ih, get?_insert, List.reverse_cons, List.lookup_append,
      lookup_cons_eq_ite, Option.or_assoc]
    split <;> rfl

/-- **The map of a list has the last value of each name.** -/
theorem get?_ofList_eq_some_iff {entries : List (String × α)} {name : String} {value : α} :
    (ofList entries).get? name = some value ↔
      ∃ front back, entries = front ++ (name, value) :: back ∧ ∀ later ∈ back, later.1 ≠ name := by
  rw [ofList, get?_foldl_insert, get?_empty, Option.or_none, List.lookup_eq_some_iff,
    exists_reverse_eq_iff]
  simp only [bne_iff_ne, ne_comm (a := name)]

/-- The entries of a map make it up, in whatever order they are. -/
theorem ofList_eq_of_perm {entries : List (String × α)} {map : NameMap α}
    (h : entries.Perm map.entries) : ofList entries = map := by
  have hdistinct : entries.Pairwise (fun a b => a.1 ≠ b.1) :=
    (map.increasing.imp fun hlt => String.ne_of_lt hlt).perm h.symm fun hne => hne.symm
  refine ext_get? fun name => Option.ext fun value => ?_
  rw [get?_ofList_eq_some_iff, get?_eq_some_iff, ← h.mem_iff]
  constructor
  · rintro ⟨front, back, rfl, -⟩
    simp
  · intro hmem
    obtain ⟨front, back, rfl⟩ := List.append_of_mem hmem
    refine ⟨front, back, rfl, fun later hin hsame => ?_⟩
    obtain ⟨-, hbehind, -⟩ := List.pairwise_append.mp hdistinct
    exact (List.pairwise_cons.mp hbehind).1 later hin hsame.symm

end NameMap

/-- The name put where it belongs, unless it is there. -/
def insertName (name : String) : List String → List String
  | [] => [name]
  | first :: rest =>
    if name < first then name :: first :: rest
    else if name = first then first :: rest
    else first :: insertName name rest

/-- **The distinct names in increasing order.** -/
def sortNames (names : List String) : List String :=
  names.foldr insertName []

theorem mem_insertName {name wanted : String} {names : List String} :
    wanted ∈ insertName name names ↔ wanted = name ∨ wanted ∈ names := by
  induction names with
  | nil => simp [insertName]
  | cons first rest ih =>
    rw [insertName]
    split
    · simp
    · split
      · next hsame => simp [hsame]
      · simp only [List.mem_cons, ih]; grind

@[simp] theorem mem_sortNames {wanted : String} {names : List String} :
    wanted ∈ sortNames names ↔ wanted ∈ names := by
  induction names with
  | nil => simp [sortNames]
  | cons first rest ih =>
    have : sortNames (first :: rest) = insertName first (sortNames rest) := rfl
    rw [this, mem_insertName, ih, List.mem_cons]

theorem pairwise_insertName (name : String) {names : List String}
    (h : names.Pairwise (· < ·)) : (insertName name names).Pairwise (· < ·) := by
  induction names with
  | nil => simp [insertName]
  | cons first rest ih =>
    obtain ⟨hafter, h⟩ := List.pairwise_cons.mp h
    rw [insertName]
    split
    · next hlt =>
      refine List.pairwise_cons.mpr ⟨fun other hmem => ?_, List.pairwise_cons.mpr ⟨hafter, h⟩⟩
      rcases List.mem_cons.mp hmem with rfl | hmem
      · exact hlt
      · exact String.lt_trans hlt (hafter other hmem)
    · split
      · exact List.pairwise_cons.mpr ⟨hafter, h⟩
      · refine List.pairwise_cons.mpr ⟨fun other hmem => ?_, ih h⟩
        rcases mem_insertName.mp hmem with rfl | hmem
        · have := Std.lt_trichotomy other first
          grind
        · exact hafter other hmem

/-- The sorted names are strictly increasing. -/
theorem pairwise_sortNames (names : List String) : (sortNames names).Pairwise (· < ·) := by
  induction names with
  | nil => exact .nil
  | cons first rest ih => exact pairwise_insertName first ih

end ProtoClient
