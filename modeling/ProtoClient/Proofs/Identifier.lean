import ProtoClient.Proofs.Text.Affix
import ProtoClient.Schema.Declaration
import ProtoClient.TypeName

/-!
# Identifiers of dotted names

A qualified name is dotted: words between dots, where a word is made of letters, digits and
underscores and does not begin with a digit. No word holds a `$`, so the segments of a dotted name
can be read off its identifier, and an identifier has no two `$` next to each other.

## Main definitions

* `isWord cs`, `IsDotted name`: words, and words between dots
* `IsScope scope`: the outermost scope, or a dotted name
* `File.DeclaresWords`: the package of a file is a scope, and it declares what is called by words
* `File.IsWorded`: the services of the file are called by words, too

## Main results

* `split_identifier`: the segments of a name are those of its identifier
* `identifier_eq_iff`: names have one identifier when they differ in a dot in front at most
* `identifier_inj`: dotted names with one identifier are equal
* `File.DeclaresWords.isDotted`: whatever is declared in a file that declares words has a dotted
  name
-/

namespace ProtoClient

open Text

/-- Whether a character may stand in a word: letters and digits of ASCII, and the underscore. -/
def isWordChar (c : Char) : Bool :=
  c.isAlphanum || c == '_'

/-- **Words**: what names of proto are made of. A word does not begin with a digit. -/
def isWord : List Char → Bool
  | [] => false
  | first :: rest => isWordChar first && !first.isDigit && rest.all isWordChar

/-- **A dotted name**: words between dots. -/
def IsDotted (name : String) : Prop :=
  ∀ segment ∈ split '.' name, isWord segment.toList = true

instance (name : String) : Decidable (IsDotted name) :=
  inferInstanceAs (Decidable (∀ segment ∈ split '.' name, isWord segment.toList = true))

/-- **A scope** of declarations: the outermost one, or one of a dotted name. -/
def IsScope (scope : String) : Prop :=
  scope = "" ∨ IsDotted scope

instance (scope : String) : Decidable (IsScope scope) :=
  inferInstanceAs (Decidable (scope = "" ∨ IsDotted scope))

section Names

variable {name a b : String}

/-- Every character of a word is one that may stand in words. -/
theorem isWordChar_of_mem {cs : List Char} (hw : isWord cs = true) {c : Char} (hc : c ∈ cs) :
    isWordChar c = true := by
  cases cs with
  | nil => cases hc
  | cons first rest =>
    simp only [isWord, Bool.and_eq_true, List.all_eq_true] at hw
    rcases List.mem_cons.mp hc with rfl | hc
    · exact hw.1.1
    · exact hw.2 c hc

/-- A word does not hold a mark that cannot stand in words. -/
theorem notMem_of_isWord {cs : List Char} (hw : isWord cs = true) {mark : Char}
    (hm : isWordChar mark = false) : mark ∉ cs := by
  intro hc
  have := isWordChar_of_mem hw hc
  simp [hm] at this

/-- A word is a dotted name. -/
theorem split_of_isWord (hw : isWord name.toList = true) : split '.' name = [name] :=
  split_of_notMem (notMem_of_isWord hw rfl)

theorem IsDotted.ne_empty (h : IsDotted name) : name ≠ "" := by
  rintro rfl
  exact absurd (h "" (by decide)) (by decide)

/-- What is called by a word in a scope has a dotted name. -/
theorem isDotted_qualify {scope : String} (hs : IsScope scope)
    (hw : isWord name.toList = true) : IsDotted (qualify scope name) := by
  intro segment hm
  unfold qualify at hm
  split at hm
  · rw [split_of_isWord hw, List.mem_singleton] at hm
    exact hm ▸ hw
  · next hne =>
    rw [split_append rfl, List.mem_append, split_of_isWord hw, List.mem_singleton] at hm
    rcases hm with hm | rfl
    · exact hs.resolve_left hne segment hm
    · exact hw

/-! ### Identifiers -/

/-- What is in the name without its dot is in the name. -/
theorem mem_of_mem_withoutDot {c : Char} (h : c ∈ (withoutDot name).toList) : c ∈ name.toList := by
  unfold withoutDot at h
  split at h
  · next rest hn =>
    rw [String.toList_ofList] at h
    rw [hn]
    exact List.mem_cons_of_mem _ h
  · exact h

/-- The segments of a name without `$` are those of its identifier. -/
theorem split_identifier_of_notMem (h : '$' ∉ name.toList) :
    split '$' (identifier name) = split '.' (withoutDot name) := by
  apply split_intercalate rfl (split_ne_nil '.' _)
  intro segment hs hm
  exact h (mem_of_mem_withoutDot ((exists_mem_split_iff (by decide) _).mp ⟨segment, hs, hm⟩))

/-- **Names without `$` have one identifier when they are equal without a dot in front.** -/
theorem identifier_eq_iff (ha : '$' ∉ a.toList) (hb : '$' ∉ b.toList) :
    identifier a = identifier b ↔ withoutDot a = withoutDot b := by
  constructor
  · intro h
    have hsplit : split '.' (withoutDot a) = split '.' (withoutDot b) := by
      rw [← split_identifier_of_notMem ha, ← split_identifier_of_notMem hb, h]
    calc withoutDot a = ".".intercalate (split '.' (withoutDot a)) := (intercalate_split rfl _).symm
      _ = ".".intercalate (split '.' (withoutDot b)) := by rw [hsplit]
      _ = withoutDot b := intercalate_split rfl _
  · intro h
    rw [identifier, identifier, h]

/-- A dotted name has no dot in front. -/
theorem withoutDot_of_isDotted (h : IsDotted name) : withoutDot name = name := by
  rw [withoutDot]
  split
  · next rest hn =>
    have hsplit : "" ∈ split '.' name := by
      rw [split, hn]
      simp [pieces]
    exact absurd (h "" hsplit) (by decide)
  · rfl

/-- A dotted name has no `$`. -/
theorem dollar_notMem_of_isDotted (h : IsDotted name) : '$' ∉ name.toList := by
  intro hm
  obtain ⟨segment, hs, hm⟩ := (exists_mem_split_iff (show '$' ≠ '.' by decide) name).mpr hm
  exact notMem_of_isWord (h segment hs) rfl hm

/-- The segments of a dotted name are those of its identifier. -/
theorem split_identifier (h : IsDotted name) : split '$' (identifier name) = split '.' name := by
  rw [split_identifier_of_notMem (dollar_notMem_of_isDotted h), withoutDot_of_isDotted h]

/-- **Dotted names with one identifier are equal.** -/
theorem identifier_inj (ha : IsDotted a) (hb : IsDotted b) (h : identifier a = identifier b) :
    a = b := by
  rw [identifier_eq_iff (dollar_notMem_of_isDotted ha) (dollar_notMem_of_isDotted hb)] at h
  rwa [withoutDot_of_isDotted ha, withoutDot_of_isDotted hb] at h

/-- The identifier of what stands in a proper scope has a `$`. -/
theorem mem_identifier_qualify {scope : String} (hs : IsScope scope) (hne : scope ≠ "")
    (hw : isWord name.toList = true) : '$' ∈ (identifier (qualify scope name)).toList := by
  refine Decidable.byContradiction fun hm => ?_
  have hsplit := split_identifier (isDotted_qualify hs hw)
  rw [split_of_notMem hm, qualify, if_neg hne, split_append rfl] at hsplit
  have hlength := congrArg List.length hsplit
  have hpos := List.length_pos_iff.mpr (split_ne_nil '.' scope)
  have hpos' := List.length_pos_iff.mpr (split_ne_nil '.' name)
  rw [List.length_append, List.length_singleton] at hlength
  omega

/-- No segment of an identifier is empty, so nothing with two `$` next to each other is one. -/
theorem notMem_split_identifier (h : IsDotted name) : "" ∉ split '$' (identifier name) := by
  rw [split_identifier h]
  intro hm
  exact absurd (h "" hm) (by decide)

end Names

/-! ### Declarations -/

/-- The name of what is declared, without its scope. -/
def Declared.name : Declared → String
  | .message inner => inner.name
  | .enumeration inner => inner.name

theorem EnumType.exists_scope_of_mem_declarations {scope : String} {inlined : Bool}
    {enums : List EnumType} {declaration : Declaration}
    (hd : declaration ∈ EnumType.declarations scope inlined enums) :
    declaration.name = qualify scope declaration.declared.name := by
  obtain ⟨enum, -, rfl⟩ := List.mem_map.mp hd
  rfl

/-- **Whatever is declared in a message stands in a scope**, and in a proper one when the message
does. -/
theorem Message.exists_scope_of_mem_declarations {scope : String} {inlined : Bool}
    {message : Message} (hs : IsScope scope)
    (hw : ∀ declaration ∈ message.declarations scope inlined,
      isWord declaration.declared.name.toList = true)
    {declaration : Declaration} (hd : declaration ∈ message.declarations scope inlined) :
    ∃ inner, IsScope inner ∧ (scope ≠ "" → inner ≠ "") ∧
      declaration.name = qualify inner declaration.declared.name := by
  -- the induction follows the nesting: a message is the scope of what is nested in it
  induction message using Message.induction generalizing scope inlined with
  | step message ih =>
    rw [Message.declarations_eq, List.forall_mem_cons, List.forall_mem_append] at hw
    obtain ⟨hword, hnested, -⟩ := hw
    have hname : IsDotted (qualify scope message.name) := isDotted_qualify hs hword
    rw [Message.declarations_eq, List.mem_cons, List.mem_append] at hd
    rcases hd with rfl | hd | hd
    · exact ⟨scope, hs, id, rfl⟩
    · obtain ⟨nested, hn, hd⟩ := List.mem_flatMap.mp hd
      obtain ⟨inner, hinner, hne, heq⟩ := ih nested hn (.inr hname)
        (fun other ho => hnested other (List.mem_flatMap.mpr ⟨nested, hn, ho⟩)) hd
      exact ⟨inner, hinner, fun _ => hne hname.ne_empty, heq⟩
    · exact ⟨_, .inr hname, fun _ => hname.ne_empty,
        EnumType.exists_scope_of_mem_declarations hd⟩

/-- **A file declares words**: its package is a scope, and whatever it declares is called by a
word. -/
structure File.DeclaresWords (file : File) : Prop where
  package : IsScope file.package
  declared : ∀ declaration ∈ file.declarations, isWord declaration.declared.name.toList = true

instance (file : File) : Decidable file.DeclaresWords :=
  decidable_of_iff
    (IsScope file.package ∧
      ∀ declaration ∈ file.declarations, isWord declaration.declared.name.toList = true)
    ⟨fun ⟨hp, hd⟩ => ⟨hp, hd⟩, fun h => ⟨h.package, h.declared⟩⟩

/-- **A file is named by words**: it declares words, and its services are called by words, too. -/
structure File.IsWorded (file : File) : Prop extends File.DeclaresWords file where
  services : ∀ service ∈ file.services, isWord service.name.toList = true

instance (file : File) : Decidable file.IsWorded :=
  decidable_of_iff
    (file.DeclaresWords ∧ ∀ service ∈ file.services, isWord service.name.toList = true)
    ⟨fun ⟨hd, hs⟩ => ⟨hd, hs⟩, fun h => ⟨h.toDeclaresWords, h.services⟩⟩

/-- Whatever a file declares stands in a scope, and in a proper one when the file has a package. -/
theorem File.DeclaresWords.exists_scope {file : File} (h : file.DeclaresWords)
    {declaration : Declaration} (hd : declaration ∈ file.declarations) :
    ∃ inner, IsScope inner ∧ (file.package ≠ "" → inner ≠ "") ∧
      declaration.name = qualify inner declaration.declared.name := by
  have hw := h.declared
  unfold File.declarations at hw hd
  rw [Message.listDeclarations_eq_flatMap, List.forall_mem_append] at hw
  rw [Message.listDeclarations_eq_flatMap, List.mem_append] at hd
  rcases hd with hd | hd
  · obtain ⟨message, hm, hd⟩ := List.mem_flatMap.mp hd
    refine Message.exists_scope_of_mem_declarations h.package (fun other ho => hw.1 other ?_) hd
    exact List.mem_flatMap.mpr ⟨message, hm, ho⟩
  · exact ⟨_, h.package, id, EnumType.exists_scope_of_mem_declarations hd⟩

/-- Whatever a file declares has a dotted name when the file declares words. -/
theorem File.DeclaresWords.isDotted {file : File} (h : file.DeclaresWords)
    {declaration : Declaration} (hd : declaration ∈ file.declarations) :
    IsDotted declaration.name := by
  obtain ⟨inner, hinner, -, heq⟩ := h.exists_scope hd
  rw [heq]
  exact isDotted_qualify hinner (h.declared declaration hd)

end ProtoClient
