import ProtoClient.Proofs.Text.Affix
import ProtoClient.TypeName

/-!
# Camel case by pieces

The camel case of a name is made from its pieces between the underscores: the first stays as it is,
and of every other the first character is raised. So an underscore separates a name into parts
whose camel cases do not depend on each other. No underscore is left over, since none comes of
raising another character, and the camel case of a camel case is the same.

## Main definitions

* `raised piece`: the piece with its first character in its upper-case form

## Main results

* `camelCaseFrom_append`: what is in front of an underscore and what follows it are cased apart
* `camelCase_eq_of_split`: the camel case of a name is made from its pieces
* `underscore_notMem_camelCase`: no underscore is left over
* `camelCase_piecewise`: camel case by pieces, and which names are their own camel case
-/

namespace ProtoClient

open Text

/-- **A piece with its first character raised**: it is replaced by its upper-case form, which may be
several characters. The empty piece has nothing to raise. -/
def raised (piece : String) : String :=
  match piece.toList with
  | [] => ""
  | first :: rest => String.ofList (capital first ++ rest)

/-! ### Pieces -/

/-- **What is in front of an underscore and what follows it are cased apart.** -/
theorem camelCaseFrom_append (flag : Bool) (front back : List Char) :
    camelCaseFrom flag (front ++ '_' :: back) =
      camelCaseFrom flag front ++ camelCaseFrom true back := by
  induction front generalizing flag with
  | nil => rfl
  | cons c front ih =>
    rw [List.cons_append, camelCaseFrom, camelCaseFrom, ih, ih]
    split
    · rfl
    · rw [List.append_assoc]

/-- A piece behind an underscore is raised. -/
theorem camelCaseFrom_true {piece : String} (h : '_' ∉ piece.toList) :
    camelCaseFrom true piece.toList = (raised piece).toList := by
  rw [raised]
  cases hp : piece.toList with
  | nil => rfl
  | cons first rest =>
    rw [hp, List.mem_cons, not_or] at h
    rw [camelCaseFrom, if_neg (Ne.symm h.1), if_pos rfl, camelCaseFrom_eq_self h.2,
      String.toList_ofList]

/-- All pieces behind underscores are raised. -/
theorem camelCaseFrom_intercalate (flag : Bool) (first : String) {others : List String}
    (h : ∀ piece ∈ others, '_' ∉ piece.toList) :
    camelCaseFrom flag ("_".intercalate (first :: others)).toList =
      camelCaseFrom flag first.toList ++ (String.join (others.map raised)).toList := by
  induction others generalizing flag first with
  | nil => simp
  | cons piece others ih =>
    rw [List.forall_mem_cons] at h
    have hcut : ("_".intercalate (first :: piece :: others)).toList =
        first.toList ++ '_' :: ("_".intercalate (piece :: others)).toList := by
      rw [String.intercalate_cons_of_ne_nil (List.cons_ne_nil _ _), String.toList_append,
        String.toList_append, List.append_assoc]
      rfl
    rw [hcut, camelCaseFrom_append, ih true piece h.2, camelCaseFrom_true h.1]
    simp

/-- **The camel case of a name is made from its pieces.** -/
theorem camelCase_eq_of_split {s first : String} {others : List String}
    (h : split '_' s = first :: others) :
    camelCase s = first ++ String.join (others.map raised) := by
  have hnone : ∀ piece ∈ first :: others, '_' ∉ piece.toList := fun piece hp =>
    notMem_of_mem_split (h ▸ hp)
  rw [List.forall_mem_cons] at hnone
  have hs : "_".intercalate (first :: others) = s := h ▸ intercalate_split rfl s
  rw [← String.toList_inj, camelCase, String.toList_ofList, ← hs,
    camelCaseFrom_intercalate false first hnone.2, camelCaseFrom_eq_self hnone.1,
    String.toList_append]

/-! ### Underscores -/

/-- The code points of an image of a run lie all before the underscore, or all behind it. -/
theorem underscore_outside_caseRuns :
    ∀ run ∈ caseRuns, run.image + (run.last - run.first) < '_'.toNat ∨ '_'.toNat < run.image := by
  decide +kernel

theorem underscore_notMem_wideCapitals :
    ∀ entry ∈ wideCapitals, '_' ∉ entry.2.map Char.ofNat := by
  decide +kernel

/-- A code point other than that of the underscore is not an underscore. -/
theorem ofNat_ne_underscore {n : Nat} (h : n ≠ '_'.toNat) : Char.ofNat n ≠ '_' := by
  intro heq
  have hcode := congrArg Char.toNat heq
  by_cases hvalid : n.isValidChar
  · rw [Char.ofNat, dif_pos hvalid] at hcode
    exact h hcode
  · rw [Char.ofNat, dif_neg hvalid] at hcode
    exact absurd hcode (by decide)

/-- **Raising a character makes no underscore.** -/
theorem underscore_notMem_capital {c : Char} (hc : c ≠ '_') : '_' ∉ capital c := by
  unfold capital
  split
  · next first rest hlookup =>
    obtain ⟨front, back, hsplit, -⟩ := List.lookup_eq_some_iff.mp hlookup
    exact underscore_notMem_wideCapitals (c.toNat, first :: rest) (by simp [hsplit])
  · split
    · next n hfound =>
      obtain ⟨run, hrun, hn⟩ := List.exists_of_findSome?_eq_some hfound
      have hside := underscore_outside_caseRuns run hrun
      rw [CaseRun.capital?] at hn
      split at hn
      · cases hn
        rw [List.mem_singleton]
        refine (ofNat_ne_underscore ?_).symm
        omega
      · cases hn
    · simpa using hc.symm

/-- **No underscore is left over** in a camel case. -/
theorem underscore_notMem_camelCaseFrom (flag : Bool) (cs : List Char) :
    '_' ∉ camelCaseFrom flag cs := by
  induction cs generalizing flag with
  | nil => simp [camelCaseFrom]
  | cons c rest ih =>
    rw [camelCaseFrom]
    split
    · exact ih true
    · next hc =>
      rw [List.mem_append, not_or]
      refine ⟨?_, ih false⟩
      cases flag with
      | true => exact underscore_notMem_capital hc
      | false => simpa using Ne.symm hc

theorem underscore_notMem_camelCase (s : String) : '_' ∉ (camelCase s).toList := by
  rw [camelCase, String.toList_ofList]
  exact underscore_notMem_camelCaseFrom false s.toList

/-- A name without underscores is its own camel case. -/
theorem camelCase_eq_self {s : String} (h : '_' ∉ s.toList) : camelCase s = s := by
  rw [camelCase, camelCaseFrom_eq_self h, String.ofList_toList]

/-- **Camel case by pieces.** The text in front of the first underscore stays, and every further
piece is raised; no underscore is left over, so a second time nothing changes, and nothing changes
the first time just when there is no underscore; and an underscore separates parts of a name that
are cased apart. -/
theorem camelCase_piecewise (s : String) :
    (∃ first others, split '_' s = first :: others ∧
        camelCase s = first ++ String.join (others.map raised)) ∧
      '_' ∉ (camelCase s).toList ∧
      camelCase (camelCase s) = camelCase s ∧
      (camelCase s = s ↔ '_' ∉ s.toList) ∧
      ∀ t, camelCase (s ++ "_" ++ t) = camelCase s ++ camelCase ("_" ++ t) := by
  have hnone := underscore_notMem_camelCase s
  refine ⟨?_, hnone, camelCase_eq_self hnone, ⟨fun h => h ▸ hnone, camelCase_eq_self⟩, fun t => ?_⟩
  · obtain ⟨first, others, h⟩ := List.exists_cons_of_ne_nil (split_ne_nil '_' s)
    exact ⟨first, others, h, camelCase_eq_of_split h⟩
  · have hs : (s ++ "_" ++ t).toList = s.toList ++ '_' :: t.toList := by simp
    have ht : ("_" ++ t).toList = [] ++ '_' :: t.toList := by simp
    rw [camelCase, camelCase, camelCase, hs, ht, camelCaseFrom_append, camelCaseFrom_append,
      String.ofList_append]
    rfl

/-- A run of underscores raises once, and a letter may be raised to two. -/
example : camelCase "_street__name_ßtra_" = "StreetNameSStra" := by decide +kernel

end ProtoClient
