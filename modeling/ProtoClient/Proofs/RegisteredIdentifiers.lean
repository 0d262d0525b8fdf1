import ProtoClient.ClientModule.Resolution
import ProtoClient.Proofs.Identifier
import ProtoClient.Proofs.Registration
import ProtoClient.Proofs.TypeScript.TopLevel

/-!
# Identifiers of registered types

Registered types differ in their qualified names. When these are dotted, they can be read off the
identifiers, which therefore differ, too; they are plain names, and none of them is taken up by the
base of an object type, whose name has two `$` next to each other.

## Main definitions

* `Registry.IsCollisionFree registry`: the identifiers of the registered types are plain names that
  differ from each other and from the names of bases

## Main results

* `isPlain_identifier`: the identifier of a dotted name is a plain name
* `eq_of_identifier_eq`: registered types with one identifier are one type
* `identifier_collisionFree`: identifiers collide for names that differ in a dot in front only, and
  so not at all for registered types
-/

namespace ProtoClient

open Text

/-! ### Plain names -/

/-- A word is a plain name. -/
theorem isPlain_of_isWord {cs : List Char} (hw : isWord cs = true) : isPlain cs = true := by
  cases cs with
  | nil => cases hw
  | cons first rest =>
    simp only [isWord, Bool.and_eq_true, List.all_eq_true] at hw
    obtain ⟨⟨hfirst, hdigit⟩, hrest⟩ := hw
    simp only [isPlain, Bool.and_eq_true, List.all_eq_true]
    exact ⟨⟨Bool.or_eq_true_iff.mpr (.inl hfirst), hdigit⟩,
      fun c hc => Bool.or_eq_true_iff.mpr (.inl (hrest c hc))⟩

/-- Words between `$` are a plain name. -/
theorem isPlain_intercalate {segments : List String} (hne : segments ≠ [])
    (h : ∀ segment ∈ segments, isWord segment.toList = true) :
    isPlain ("$".intercalate segments).toList = true := by
  induction segments with
  | nil => exact absurd rfl hne
  | cons segment rest ih =>
    rw [List.forall_mem_cons] at h
    have hfront := isPlain_of_isWord h.1
    by_cases hr : rest = []
    · rw [hr, String.intercalate_singleton]
      exact hfront
    · have hrest := ih hr h.2
      rw [String.intercalate_cons_of_ne_nil hr, String.toList_append, String.toList_append]
      apply isPlain_append (isPlain_append hfront rfl)
      exact List.all_eq_true.mpr fun c hc => isPlainChar_of_mem hrest hc

/-- The identifier of a dotted name is a plain name. -/
theorem isPlain_identifier {name : String} (h : IsDotted name) :
    isPlain (identifier name).toList = true := by
  rw [identifier, withoutDot_of_isDotted h]
  exact isPlain_intercalate (split_ne_nil '.' name) h

/-! ### Bases -/

/-- The name of a base type has two `$` next to each other. -/
theorem mem_split_base (identifier : String) : "" ∈ split '$' (identifier ++ "$$Base") := by
  have heq : identifier ++ "$$Base" = identifier ++ "$" ++ "$Base" := by
    rw [String.append_assoc]
    rfl
  rw [heq, split_append rfl, List.mem_append]
  exact .inr (by decide)

/-- The identifier of a dotted name is not the name of a base. -/
theorem identifier_ne_base {name : String} (h : IsDotted name) (other : String) :
    identifier name ≠ other ++ "$$Base" :=
  fun heq => notMem_split_identifier h (heq ▸ mem_split_base other)

/-! ### Registered types -/

section Declared

variable {files : List File} (hw : ∀ file ∈ files, file.DeclaresWords)

include hw

/-- Declared types stand in a scope, and in a proper one when all files have packages. -/
theorem exists_scope_of_mem_declaredTypes {type : Registered} (ht : type ∈ declaredTypes files) :
    ∃ scope word, IsScope scope ∧ isWord word.toList = true ∧ type.name = qualify scope word ∧
      ((∀ file ∈ files, file.package ≠ "") → scope ≠ "") := by
  obtain ⟨file, hf, declaration, hd, rfl⟩ := mem_declaredTypes.mp ht
  obtain ⟨scope, hscope, hne, hname⟩ := (hw file hf).exists_scope hd
  refine ⟨scope, _, hscope, (hw file hf).declared _ hd, ?_, fun hp => hne (hp file hf)⟩
  rw [Declaration.name_registered, hname]

theorem isDotted_of_mem_declaredTypes {type : Registered} (ht : type ∈ declaredTypes files) :
    IsDotted type.name := by
  obtain ⟨scope, word, hscope, hword, hname, -⟩ := exists_scope_of_mem_declaredTypes hw ht
  exact hname ▸ isDotted_qualify hscope hword

/-- **Registered types with one identifier are one type.** -/
theorem eq_of_identifier_eq {registry : Registry} (hreg : Registry.ofFiles files = .ok registry)
    {type other : Registered} (ht : type ∈ declaredTypes files) (ho : other ∈ declaredTypes files)
    (heq : identifier type.name = identifier other.name) : type = other := by
  have hname := identifier_inj (isDotted_of_mem_declaredTypes hw ht)
    (isDotted_of_mem_declaredTypes hw ho) heq
  exact List.inj_on_of_nodup_map (Registry.ofFiles_eq_ok_iff.mp hreg).nodup ht ho hname

end Declared

/-- **The identifiers of a registry are free of collisions**: they differ, they are plain names,
and none of them is the name of a base. -/
structure Registry.IsCollisionFree (registry : Registry) : Prop where
  nodup : (registry.values.map (·.reference.identifier)).Nodup
  plain : ∀ type ∈ registry.values, ProtoClient.isPlain type.reference.identifier.toList = true
  base : ∀ type ∈ registry.values, ∀ other ∈ registry.values,
    type.reference.identifier ≠ other.reference.identifier ++ "$$Base"

/-- **The registry of files that declare words is free of collisions.** -/
theorem Registry.isCollisionFree_of_ofFiles {files : List File} {registry : Registry}
    (hreg : ofFiles files = .ok registry) (hw : ∀ file ∈ files, file.DeclaresWords) :
    registry.IsCollisionFree := by
  have hholds := ofFiles_eq_ok_iff.mp hreg
  have hmem {type : Registered} (ht : type ∈ registry.values) : type ∈ declaredTypes files :=
    hholds.values_perm.mem_iff.mp ht
  constructor
  case nodup =>
    have hnodup : registry.values.Nodup :=
      hholds.values_perm.nodup_iff.mpr (hholds.nodup.of_map _)
    exact hnodup.map_on fun type ht other ho heq =>
      eq_of_identifier_eq hw hreg (hmem ht) (hmem ho) heq
  case plain =>
    exact fun type ht => isPlain_identifier (isDotted_of_mem_declaredTypes hw (hmem ht))
  case base =>
    exact fun type ht other _ =>
      identifier_ne_base (isDotted_of_mem_declaredTypes hw (hmem ht)) _

/-- **Identifiers are free of collisions.** Names without `$` have one identifier only when they
are equal up to a dot in front; and files whose packages are scopes and whose messages and enums
are called by words are registered under identifiers that differ from each other and from the names
of bases. -/
theorem identifier_collisionFree :
    (∀ a b : String, '$' ∉ a.toList → '$' ∉ b.toList →
      (identifier a = identifier b ↔ withoutDot a = withoutDot b)) ∧
    ∀ (files : List File) (registry : Registry), Registry.ofFiles files = .ok registry →
      (∀ file ∈ files, file.DeclaresWords) → registry.IsCollisionFree :=
  ⟨fun _ _ => identifier_eq_iff, fun _ _ => Registry.isCollisionFree_of_ofFiles⟩

namespace Sample

/-- Files whose types would collide if scopes were joined by underscores: one is without a package,
and one has a service whose name is no word. -/
def scopes : List File := [
  { name := "shop_item.proto", package := "shop_item", dependencies := [],
    messages := [⟨"Part", [], [⟨"_Size", [], [], [], [], false⟩], [⟨"Kind", []⟩], [], false⟩],
    enums := [], services := [⟨"no word", []⟩] },
  { name := "shop.proto", package := "shop", dependencies := [],
    messages := [⟨"item", [], [⟨"Part", [], [], [], [], false⟩], [], [], false⟩],
    enums := [⟨"item_Part", []⟩], services := [] },
  { name := "plain.proto", package := "", dependencies := [],
    messages := [⟨"shop_item_Part", [], [], [], [], false⟩], enums := [], services := [] }]

end Sample

/-- The types of these files are told apart, and a dot in front of a name is not part of it. -/
theorem identifier_collisionFree_scopes :
    identifier ".shop.item_Part" = identifier "shop.item_Part" ∧
      identifier "shop.item_Part" ≠ identifier "shop.item.Part" ∧
      (∀ file ∈ Sample.scopes, file.DeclaresWords) ∧
      ∃ registry, Registry.ofFiles Sample.scopes = .ok registry ∧ registry.IsCollisionFree ∧
        registry.values.map (·.reference.identifier) = ["shop$item", "shop$item$Part",
          "shop$item_Part", "shop_item$Part", "shop_item$Part$Kind", "shop_item$Part$_Size",
          "shop_item_Part"] := by
  have hiff := identifier_collisionFree.1
  have hw : ∀ file ∈ Sample.scopes, file.DeclaresWords := by decide +kernel
  have hrun : (Registry.ofFiles Sample.scopes).map
      (fun registry => registry.values.map (·.reference.identifier)) =
      .ok ["shop$item", "shop$item$Part", "shop$item_Part", "shop_item$Part",
        "shop_item$Part$Kind", "shop_item$Part$_Size", "shop_item_Part"] := by decide +kernel
  obtain ⟨registry, hreg, hnames⟩ := map_eq_ok_iff.mp hrun
  refine ⟨(hiff _ _ (by decide) (by decide)).mpr (by decide), fun h => ?_, hw, registry, hreg,
    identifier_collisionFree.2 Sample.scopes registry hreg hw, hnames⟩
  exact absurd ((hiff _ _ (by decide) (by decide)).mp h) (by decide)

end ProtoClient
