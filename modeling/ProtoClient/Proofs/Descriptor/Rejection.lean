import ProtoClient.Proofs.Descriptor.Describing

/-!
# Which descriptors are rejected

A field descriptor is sound when its type is known and has a name where it needs one, its label is
known, and it stands at no negative position of a oneof. Conversion accepts a request when the
fields of all of its messages are sound, however deeply the messages are nested. Otherwise it
rejects the request for the first field that is not: it goes through the files in order, and in a
message through its own fields before those of the messages nested in it. The fault names the file
and the messages around the field, from the outside in.

## Main definitions

* `FieldDescriptor.IsSound field`: nothing is wrong with the field
* `FieldDescriptor.IsFaulted field fault`: what is wrong with the field first
* `PlacedField`, `GeneratorRequest.placedFields request`: the fields of a request in order, with the
  file and the messages around them

## Main results

* `FieldDescriptor.toField?_eq_error_iff`, `FieldDescriptor.failure?_toField?_eq_none_iff`: what is
  wrong with a field is why it is rejected
* `MessageDescriptor.failure?_toMessage?`: a message is rejected for the first of the fields in it
* `GeneratorRequest.toRequest?_outcome`: which requests are rejected, and for which fault
-/

namespace ProtoClient

/-! ### What is wrong with a field -/

theorem FieldDescriptor.isNamedType_iff {number : Int} :
    isNamedType number = true ↔ number = 10 ∨ number = 11 ∨ number = 14 := by
  simp [isNamedType, or_assoc]

/-- Scalar types have all numbers from the first to the last that no other type has. -/
theorem Scalar.ofNumber?_eq_none_iff {number : Int}
    (hn : FieldDescriptor.isNamedType number = false) :
    ofNumber? number = none ↔ number < 1 ∨ 18 < number := by
  constructor
  · intro h
    by_contra hrange
    have hlow : 1 ≤ number := by omega
    have hhigh : number ≤ 18 := by omega
    interval_cases number <;> revert hn h <;> decide
  · intro h
    rw [Option.eq_none_iff_forall_ne_some]
    intro scalar hscalar
    rw [ofNumber?_eq_some_iff] at hscalar
    cases scalar <;> rw [hscalar] at h <;> revert h <;> decide

namespace FieldDescriptor

variable {field : FieldDescriptor} {fault : FieldFault}

/-- The field has a type, whose number is one of those that there are. -/
def HasType (field : FieldDescriptor) : Prop :=
  ∃ number, field.type = some number ∧ 1 ≤ number ∧ number ≤ 18

/-- The type has a name if it is a group, a message or an enum. -/
def NamesType (field : FieldDescriptor) : Prop :=
  ∀ number, field.type = some number → number = 10 ∨ number = 11 ∨ number = 14 →
    field.typeName ≠ none

/-- The label is absent or one of those that there are. -/
def HasLabel (field : FieldDescriptor) : Prop :=
  ∀ label, field.label = some label → label = 1 ∨ label = 2 ∨ label = 3

/-- The position of the oneof is absent or not negative. -/
def HasChoice (field : FieldDescriptor) : Prop :=
  ∀ choice, field.choice = some choice → 0 ≤ choice

/-- **A field descriptor is sound**: its type is known and has a name where it needs one, its label
is known, and the position of its oneof is not negative. -/
structure IsSound (field : FieldDescriptor) : Prop where
  type : field.HasType
  typeName : field.NamesType
  label : field.HasLabel
  choice : field.HasChoice

/-- **What is wrong with a field first**: the type comes before its name, that before the label, and
that before the oneof. -/
inductive IsFaulted (field : FieldDescriptor) : FieldFault → Prop
  | untyped (h : field.type = none) : IsFaulted field (.untyped (field.name.getD ""))
  | unknownType {number : Int} (h : field.type = some number) (hn : number < 1 ∨ 18 < number) :
    IsFaulted field (.unknownType (field.name.getD "") number)
  | unnamedType (ht : field.HasType) (h : ¬field.NamesType) :
    IsFaulted field (.unnamedType (field.name.getD ""))
  | unknownLabel {label : Int} (ht : field.HasType) (hn : field.NamesType)
    (h : field.label = some label) (hl : label ≠ 1 ∧ label ≠ 2 ∧ label ≠ 3) :
    IsFaulted field (.unknownLabel (field.name.getD "") label)
  | negativeChoice {choice : Int} (ht : field.HasType) (hn : field.NamesType)
    (hl : field.HasLabel) (h : field.choice = some choice) (hc : choice < 0) :
    IsFaulted field (.negativeChoice (field.name.getD "") choice)

/-- The type of a field is rejected when there is none, when it is unknown, or else when it has no
name and needs one. -/
theorem fieldType?_eq_error_iff :
    field.fieldType? = .error fault ↔
      (field.type = none ∧ fault = .untyped (field.name.getD "")) ∨
      (∃ number, field.type = some number ∧ (number < 1 ∨ 18 < number) ∧
        fault = .unknownType (field.name.getD "") number) ∨
      field.HasType ∧ ¬field.NamesType ∧ fault = .unnamedType (field.name.getD "") := by
  rw [fieldType?, HasType, NamesType]
  cases field.type with
  | none => simp [eq_comm]
  | some number =>
    by_cases hnamed : isNamedType number = true
    · have hnumber := isNamedType_iff.mp hnamed
      have hlow : ¬(number < 1 ∨ 18 < number) := by omega
      have hrange : 1 ≤ number ∧ number ≤ 18 := by omega
      have hneeds : (∀ other, some number = some other → other = 10 ∨ other = 11 ∨ other = 14 →
          field.typeName ≠ none) ↔ field.typeName ≠ none :=
        ⟨fun h => h number rfl hnumber, fun h _ _ _ => h⟩
      rw [hneeds]
      cases field.typeName <;> simp [hnamed, hlow, hrange, eq_comm]
    · have hnumber := mt isNamedType_iff.mpr hnamed
      have hscalar := Scalar.ofNumber?_eq_none_iff (Bool.eq_false_of_not_eq_true hnamed)
      cases hof : Scalar.ofNumber? number with
      | none => simp [hnamed, hof, hnumber, hscalar.mp hof, eq_comm]
      | some scalar =>
        have hrange : ¬(number < 1 ∨ 18 < number) := by
          rw [← hscalar, hof]
          exact Option.some_ne_none scalar
        simp [hnamed, hof, hnumber, hrange]

/-- The label of a field is rejected when it is unknown. -/
theorem label?_eq_error_iff :
    field.label? = .error fault ↔
      ∃ label, field.label = some label ∧ (label ≠ 1 ∧ label ≠ 2 ∧ label ≠ 3) ∧
        fault = .unknownLabel (field.name.getD "") label := by
  rw [label?]
  cases field.label with
  | none => simp
  | some label =>
    simp only [Option.getD_some, Option.some.injEq, exists_eq_left']
    split
    · simp
    · simp
    · simp
    · next h1 h2 h3 =>
      have hl : label ≠ 1 ∧ label ≠ 2 ∧ label ≠ 3 := ⟨h1, h2, h3⟩
      simp [hl, eq_comm]

/-- The oneof of a field is rejected when its position is negative. -/
theorem choice?_eq_error_iff :
    field.choice? = .error fault ↔
      ∃ choice, field.choice = some choice ∧ choice < 0 ∧
        fault = .negativeChoice (field.name.getD "") choice := by
  rw [choice?]
  cases field.choice with
  | none => simp
  | some choice => by_cases hneg : choice < 0 <;> simp [hneg, eq_comm]

/-- The type of a field is converted when it is known and has a name where it needs one. -/
theorem failure?_fieldType?_eq_none_iff :
    failure? field.fieldType? = none ↔ field.HasType ∧ field.NamesType := by
  rw [Option.eq_none_iff_forall_ne_some]
  simp only [ne_eq, failure?_eq_some_iff, fieldType?_eq_error_iff]
  constructor
  · intro h
    have ht : field.HasType := by
      cases htype : field.type with
      | none => exact absurd (.inl ⟨htype, rfl⟩) (h _)
      | some number =>
        have hrange : ¬(number < 1 ∨ 18 < number) := fun hn =>
          h _ (.inr (.inl ⟨number, htype, hn, rfl⟩))
        exact ⟨number, htype, by omega, by omega⟩
    exact ⟨ht, by_contra fun hn => h _ (.inr (.inr ⟨ht, hn, rfl⟩))⟩
  · rintro ⟨⟨number, htype, hlow, hhigh⟩, hn⟩ fault (⟨hnone, -⟩ | ⟨other, hother, hrange, -⟩ | h)
    · cases htype.symm.trans hnone
    · cases htype.symm.trans hother
      omega
    · exact h.2.1 hn

theorem failure?_label?_eq_none_iff : failure? field.label? = none ↔ field.HasLabel := by
  simp only [Option.eq_none_iff_forall_ne_some, ne_eq, failure?_eq_some_iff, label?_eq_error_iff]
  constructor
  · intro h label hlabel
    by_contra hl
    exact h _ ⟨label, hlabel, by tauto, rfl⟩
  · rintro h fault ⟨label, hlabel, hl, -⟩
    have hknown := h label hlabel
    tauto

theorem failure?_choice?_eq_none_iff : failure? field.choice? = none ↔ field.HasChoice := by
  simp only [Option.eq_none_iff_forall_ne_some, ne_eq, failure?_eq_some_iff, choice?_eq_error_iff]
  constructor
  · intro h choice hchoice
    by_contra hc
    exact h _ ⟨choice, hchoice, by omega, rfl⟩
  · rintro h fault ⟨choice, hchoice, hc, -⟩
    have hpos := h choice hchoice
    omega

/-- A field is rejected for its type, or else for its label, or else for its oneof. -/
theorem failure?_toField? (field : FieldDescriptor) :
    failure? field.toField? =
      (failure? field.fieldType?).or ((failure? field.label?).or (failure? field.choice?)) := by
  refine failure?_bind fun _ _ => failure?_bind fun _ _ => failure?_bind_of_forall fun _ => rfl

/-- **A field is rejected for what is wrong with it first.** -/
theorem toField?_eq_error_iff : field.toField? = .error fault ↔ field.IsFaulted fault := by
  rw [← failure?_eq_some_iff, failure?_toField?, Option.or_eq_some_iff, Option.or_eq_some_iff,
    failure?_fieldType?_eq_none_iff, failure?_label?_eq_none_iff]
  simp only [failure?_eq_some_iff, fieldType?_eq_error_iff, label?_eq_error_iff,
    choice?_eq_error_iff]
  constructor
  · rintro ((⟨h, rfl⟩ | ⟨number, h, hn, rfl⟩ | ⟨ht, h, rfl⟩) |
      ⟨⟨ht, hn⟩, ⟨label, h, hl, rfl⟩ | ⟨hl, choice, h, hc, rfl⟩⟩)
    · exact .untyped h
    · exact .unknownType h hn
    · exact .unnamedType ht h
    · exact .unknownLabel ht hn h hl
    · exact .negativeChoice ht hn hl h hc
  · intro h
    cases h with
    | untyped h => exact .inl (.inl ⟨h, rfl⟩)
    | unknownType h hn => exact .inl (.inr (.inl ⟨_, h, hn, rfl⟩))
    | unnamedType ht h => exact .inl (.inr (.inr ⟨ht, h, rfl⟩))
    | unknownLabel ht hn h hl => exact .inr ⟨⟨ht, hn⟩, .inl ⟨_, h, hl, rfl⟩⟩
    | negativeChoice ht hn hl h hc => exact .inr ⟨⟨ht, hn⟩, .inr ⟨hl, _, h, hc, rfl⟩⟩

/-- **A field is accepted when nothing is wrong with it.** -/
theorem failure?_toField?_eq_none_iff : failure? field.toField? = none ↔ field.IsSound := by
  rw [failure?_toField?, Option.or_eq_none_iff, Option.or_eq_none_iff,
    failure?_fieldType?_eq_none_iff, failure?_label?_eq_none_iff, failure?_choice?_eq_none_iff]
  constructor
  · rintro ⟨⟨ht, hn⟩, hl, hc⟩
    exact ⟨ht, hn, hl, hc⟩
  · rintro ⟨ht, hn, hl, hc⟩
    exact ⟨⟨ht, hn⟩, hl, hc⟩

end FieldDescriptor

/-! ### Where the fields stand -/

/-- **A field with the place where it stands**: the file, and the messages around the field, from
the outermost one on. -/
structure PlacedField where
  file : String
  messages : List String
  field : FieldDescriptor

mutual

/-- **The fields in a message** with the messages around them: those of the message itself come
before those of the messages nested in it. -/
def MessageDescriptor.placedFields : MessageDescriptor → List (List String × FieldDescriptor)
  | ⟨name, fields, nested, _, _, _⟩ =>
    (fields.map (([], ·)) ++ MessageDescriptor.listPlacedFields nested).map
      fun (messages, field) => (name.getD "" :: messages, field)

/-- The fields in messages with the messages around them. -/
def MessageDescriptor.listPlacedFields :
    List MessageDescriptor → List (List String × FieldDescriptor)
  | [] => []
  | message :: rest => message.placedFields ++ MessageDescriptor.listPlacedFields rest

end

/-- The fields in a file with their places. -/
def FileDescriptor.placedFields (file : FileDescriptor) : List PlacedField :=
  (MessageDescriptor.listPlacedFields file.messages).map fun (messages, field) =>
    ⟨file.name.getD "", messages, field⟩

/-- **The fields in a request with their places**, file by file. -/
def GeneratorRequest.placedFields (request : GeneratorRequest) : List PlacedField :=
  request.files.flatMap FileDescriptor.placedFields

/-! ### Why messages, files and requests are rejected -/

theorem MessageDescriptor.listPlacedFields_eq_flatMap (messages : List MessageDescriptor) :
    listPlacedFields messages = messages.flatMap placedFields := by
  induction messages with
  | nil => rfl
  | cons message rest ih => rw [listPlacedFields, ih, List.flatMap_cons]

/-- Why a field is rejected, with the messages around it. -/
def FieldDescriptor.rejection? (placed : List String × FieldDescriptor) :
    Option (List String × FieldFault) :=
  (failure? placed.2.toField?).map (placed.1, ·)

/-- What is rejected inside a message is rejected with the message around it. -/
theorem failure?_insideMessage {α : Type} (name : String)
    (read : Except (List String × FieldFault) α) :
    failure? (insideMessage name read) =
      (failure? read).map fun (messages, fault) => (name :: messages, fault) :=
  failure?_mapError _ read

/-- **A message is rejected for the first of the fields in it that is rejected.** -/
theorem MessageDescriptor.failure?_toMessage? (message : MessageDescriptor) :
    failure? message.toMessage? = message.placedFields.findSome? FieldDescriptor.rejection? := by
  -- the induction is on the messages nested in it, of which all fields come after its own
  induction message using MessageDescriptor.induction with
  | step message ih =>
    obtain ⟨name, fields, nested, enums, options, choices⟩ := message
    have hnested : failure? (toMessages? nested) =
        (listPlacedFields nested).findSome? FieldDescriptor.rejection? := by
      rw [toMessages?_eq_mapM, failure?_mapM, listPlacedFields_eq_flatMap, findSome?_flatMap]
      exact findSome?_congr ih
    have hfields : failure? ((fields.mapM FieldDescriptor.toField?).mapError fun fault =>
        (([], fault) : List String × FieldFault)) =
        (fields.map (([], ·))).findSome? FieldDescriptor.rejection? := by
      rw [failure?_mapError, failure?_mapM, List.map_findSome?, List.findSome?_map]
      rfl
    have hinside (placed : List (List String × FieldDescriptor)) :
        ((placed.findSome? FieldDescriptor.rejection?).map fun (messages, fault) =>
          (name.getD "" :: messages, fault)) =
        (placed.map fun (messages, field) => (name.getD "" :: messages, field)).findSome?
          FieldDescriptor.rejection? := by
      rw [List.map_findSome?, List.findSome?_map]
      refine findSome?_congr fun placed _ => ?_
      simp [FieldDescriptor.rejection?, Function.comp_def]
    have hsteps : failure? (toMessage? ⟨name, fields, nested, enums, options, choices⟩) =
        (failure? (insideMessage (name.getD "") ((fields.mapM FieldDescriptor.toField?).mapError
          fun fault => ([], fault)))).or
        (failure? (insideMessage (name.getD "") (toMessages? nested))) :=
      failure?_bind fun _ _ => failure?_bind_of_forall fun _ => rfl
    rw [hsteps, failure?_insideMessage, failure?_insideMessage, hfields, hnested, hinside, hinside,
      placedFields, List.map_append, List.findSome?_append]

/-- Why a field of a request is rejected. -/
def PlacedField.rejection? (placed : PlacedField) : Option ConversionFault :=
  (failure? placed.field.toField?).map (⟨placed.file, placed.messages, ·⟩)

theorem PlacedField.rejection?_eq_some_iff {placed : PlacedField} {fault : ConversionFault} :
    placed.rejection? = some fault ↔
      fault.file = placed.file ∧ fault.messages = placed.messages ∧
        placed.field.IsFaulted fault.fault := by
  obtain ⟨file, messages, inner⟩ := fault
  simp only [rejection?, Option.map_eq_some_iff, failure?_eq_some_iff,
    FieldDescriptor.toField?_eq_error_iff, ConversionFault.mk.injEq]
  constructor
  · rintro ⟨_, h, rfl, rfl, rfl⟩
    exact ⟨rfl, rfl, h⟩
  · rintro ⟨rfl, rfl, h⟩
    exact ⟨inner, h, rfl, rfl, rfl⟩

/-- A file is rejected for the first of the fields in it that is rejected. -/
theorem FileDescriptor.failure?_toFile? (file : FileDescriptor) :
    failure? file.toFile? = file.placedFields.findSome? PlacedField.rejection? := by
  have hmessages : failure? (MessageDescriptor.toMessages? file.messages) =
      (MessageDescriptor.listPlacedFields file.messages).findSome?
        FieldDescriptor.rejection? := by
    rw [MessageDescriptor.toMessages?_eq_mapM, failure?_mapM,
      MessageDescriptor.listPlacedFields_eq_flatMap, findSome?_flatMap]
    exact findSome?_congr fun message _ => message.failure?_toMessage?
  rw [toFile?, failure?_bind_of_forall fun _ => rfl, failure?_mapError, hmessages, placedFields,
    List.map_findSome?, List.findSome?_map]
  refine findSome?_congr fun placed _ => ?_
  simp [FieldDescriptor.rejection?, PlacedField.rejection?, Function.comp_def]

/-- **A request is rejected for the first of its fields that is rejected.** -/
theorem GeneratorRequest.failure?_toRequest? (request : GeneratorRequest) :
    failure? request.toRequest? = request.placedFields.findSome? PlacedField.rejection? := by
  rw [toRequest?, failure?_bind_of_forall fun _ => rfl, failure?_mapM, placedFields,
    findSome?_flatMap]
  exact findSome?_congr fun file _ => file.failure?_toFile?

/-- **A request is converted when all fields in it are sound**, at whatever depth they stand, and
otherwise it is rejected for the first one that is not. The wording of the fault leads from the file
through the messages around the field to what is wrong with it. -/
theorem GeneratorRequest.toRequest?_outcome (request : GeneratorRequest) :
    ((∃ converted, request.toRequest? = .ok converted) ↔
      ∀ placed ∈ request.placedFields, placed.field.IsSound) ∧
    ∀ fault, request.toRequest? = .error fault ↔
      ∃ front placed back, request.placedFields = front ++ placed :: back ∧
        (∀ earlier ∈ front, earlier.field.IsSound) ∧
        placed.field.IsFaulted fault.fault ∧
        fault.file = placed.file ∧ fault.messages = placed.messages ∧
        fault.message = ": ".intercalate (("converting messages of " ++ placed.file) ::
          placed.messages.map ("in message " ++ ·) ++ [fault.fault.message]) := by
  have hsound (placed : PlacedField) : placed.rejection? = none ↔ placed.field.IsSound := by
    rw [PlacedField.rejection?, Option.map_eq_none_iff,
      FieldDescriptor.failure?_toField?_eq_none_iff]
  constructor
  · simp only [← failure?_eq_none_iff, failure?_toRequest?, List.findSome?_eq_none_iff, hsound]
  · intro fault
    rw [← failure?_eq_some_iff, failure?_toRequest?, List.findSome?_eq_some_iff]
    simp only [PlacedField.rejection?_eq_some_iff, hsound]
    constructor
    · rintro ⟨front, placed, back, hsplit, ⟨hfile, hmessages, hfault⟩, hfront⟩
      refine ⟨front, placed, back, hsplit, hfront, hfault, hfile, hmessages, ?_⟩
      rw [ConversionFault.message, hfile, hmessages]
      rfl
    · rintro ⟨front, placed, back, hsplit, hfront, hfault, hfile, hmessages, -⟩
      exact ⟨front, placed, back, hsplit, ⟨hfile, hmessages, hfault⟩, hfront⟩

/-- The field of a message that is nested in another one is rejected with both of them named. -/
example : failure? (GeneratorRequest.toRequest? {
    files := [{
      name := some "shop.proto"
      messages := [{
        name := some "Cart"
        nested := [{ name := some "Item", fields := [{ name := some "price" }] }] }] }] }) =
    some ⟨"shop.proto", ["Cart", "Item"], .untyped "price"⟩ := by
  decide

end ProtoClient
