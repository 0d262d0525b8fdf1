import ProtoClient.Descriptor.OfSchema
import ProtoClient.Proofs.Descriptor.RoundTrip
import ProtoClient.Proofs.Outcome

/-!
# What a descriptor says

A descriptor describes a schema when each of its parts states what the schema has there. A part
that has a default may be absent for it, a scalar type may have a name besides its number, a rule
may bring further rules with it, and a method that is not bound may still have a rule, as long as
that has no pattern. Conversion neither loses nor adds anything: a descriptor is converted to the
schema that it describes, and to no other. And every schema is described, so every schema is
reached, provided that its numbers have room in a descriptor and no body is the empty text.

## Main definitions

* `States default value part`: the part of a descriptor states the value
* `FieldDescriptor.Describes`, `MessageDescriptor.Describes`, ..., `GeneratorRequest.Describes`: a
  descriptor describes a part of a schema
* `File.numbers file`: the numbers in a schema that a descriptor must have room for

## Main results

* `FieldDescriptor.toField?_eq_ok_iff`, `MessageDescriptor.toMessage?_eq_ok_iff`: what is described
  is what a field or a message is converted to
* `Request.describes_toDescriptor`: every request with room in a descriptor is described by one
* `Request.reached`: conversion reaches every request, from each of its descriptors
-/

namespace ProtoClient

/-! ### Descriptors of schemas -/

/-- **A part of a descriptor states a value**, or is absent where the value is the default. -/
def States {α : Type} (default value : α) (part : Option α) : Prop :=
  part = some value ∨ part = none ∧ value = default

/-- **A type is stated** by the number of a scalar type, whatever name comes with it, or by the
number of a group, a message or an enum with its name. -/
inductive StatesType : Option Int → Option String → FieldType → Prop
  | scalar (scalar : Scalar) (typeName : Option String) :
    StatesType (some scalar.number) typeName (.scalar scalar)
  | named {number : Int} (name : String) (hn : number = 10 ∨ number = 11 ∨ number = 14) :
    StatesType (some number) (some name) (.named name)

/-- **A descriptor describes a field.** -/
structure FieldDescriptor.Describes (raw : FieldDescriptor) (field : Field) : Prop where
  name : States "" field.name raw.name
  number : States 0 field.number raw.number
  label : States 1 field.label.number raw.label
  type : StatesType raw.type raw.typeName field.type
  choice : raw.choice = field.choice.map Int.ofNat
  jsonName : raw.jsonName = field.jsonName
  explicitPresence : States false field.explicitPresence raw.explicitPresence

structure EnumValueDescriptor.Describes (raw : EnumValueDescriptor) (value : EnumValue) :
    Prop where
  name : States "" value.name raw.name
  number : States 0 value.number raw.number

/-- **A descriptor describes an enum.** -/
structure EnumDescriptor.Describes (raw : EnumDescriptor) (enum : EnumType) : Prop where
  name : States "" enum.name raw.name
  values : List.Forall₂ EnumValueDescriptor.Describes raw.values enum.values

/-- **A descriptor describes a message**, and the ones nested in it those that are nested in the
message. -/
inductive MessageDescriptor.Describes : MessageDescriptor → Message → Prop
  | intro {raw : MessageDescriptor} {message : Message} (name : States "" message.name raw.name)
    (fields : List.Forall₂ FieldDescriptor.Describes raw.fields message.fields)
    (nested : List.Forall₂ MessageDescriptor.Describes raw.nested message.nested)
    (enums : List.Forall₂ EnumDescriptor.Describes raw.enums message.enums)
    (choices : List.Forall₂ (fun choice name => States "" name choice.name) raw.choices
      message.choices)
    (isEntry : States false message.isEntry (raw.options.bind MessageOptions.isEntry)) :
    Describes raw message

/-- **A rule describes a binding**, whatever rules it brings with it. Without a body its text is
empty. -/
structure HttpRule.Describes (rule : HttpRule) (binding : Binding) : Prop where
  pattern : rule.pattern = some (binding.verb.toPattern binding.path)
  body : binding.body = none ∧ rule.body = "" ∨ binding.body = some rule.body ∧ rule.body ≠ ""

/-- **What a rule says of a method**: that it is bound, or, without a pattern, nothing at all. -/
inductive StatesBinding : Option HttpRule → Option Binding → Prop
  | bound {rule : HttpRule} {binding : Binding} (h : rule.Describes binding) :
    StatesBinding (some rule) (some binding)
  | unbound : StatesBinding none none
  | patternless {rule : HttpRule} (h : rule.pattern = none) : StatesBinding (some rule) none

/-- **A descriptor describes a method.** -/
structure MethodDescriptor.Describes (raw : MethodDescriptor) (method : Method) : Prop where
  name : States "" method.name raw.name
  input : States "" method.input raw.input
  output : States "" method.output raw.output
  clientStreaming : States false method.clientStreaming raw.clientStreaming
  serverStreaming : States false method.serverStreaming raw.serverStreaming
  binding : StatesBinding (raw.options.bind MethodOptions.http) method.binding

structure ServiceDescriptor.Describes (raw : ServiceDescriptor) (service : Service) : Prop where
  name : States "" service.name raw.name
  methods : List.Forall₂ MethodDescriptor.Describes raw.methods service.methods

/-- **A descriptor describes a file.** -/
structure FileDescriptor.Describes (raw : FileDescriptor) (file : File) : Prop where
  name : States "" file.name raw.name
  package : States "" file.package raw.package
  dependencies : raw.dependencies = file.dependencies
  messages : List.Forall₂ MessageDescriptor.Describes raw.messages file.messages
  enums : List.Forall₂ EnumDescriptor.Describes raw.enums file.enums
  services : List.Forall₂ ServiceDescriptor.Describes raw.services file.services

/-- **A request of the proto compiler describes a request**, whatever its parameters are. -/
structure GeneratorRequest.Describes (raw : GeneratorRequest) (request : Request) : Prop where
  requested : raw.requested = request.requested
  files : List.Forall₂ FileDescriptor.Describes raw.files request.files

/-- The numbers of a field that its descriptor must have room for. -/
def Field.numbers (field : Field) : List Int :=
  field.number :: (field.choice.map Int.ofNat).toList

def Declaration.numbers (declaration : Declaration) : List Int :=
  match declaration.declared with
  | .message message => message.fields.flatMap Field.numbers
  | .enumeration enum => enum.values.map EnumValue.number

/-- **The numbers in a file that its descriptor must have room for.** -/
def File.numbers (file : File) : List Int :=
  file.declarations.flatMap Declaration.numbers

/-- The numbers in a request that its descriptor must have room for. -/
def Request.numbers (request : Request) : List Int :=
  request.files.flatMap File.numbers

/-! ### Parts and lists -/

theorem states_some {α : Type} (default value : α) : States default value (some value) := .inl rfl

/-- A part states the value that it has, or the default. -/
theorem getD_eq_iff_states {α : Type} {default value : α} {part : Option α} :
    part.getD default = value ↔ States default value part := by
  cases part with
  | none => simp [States, eq_comm]
  | some given => simp [States]

/-- A map relates a list to what its members are made to. -/
theorem map_eq_iff_forall₂ {α β : Type} {f : α → β} {r : α → β → Prop} {xs : List α} {ys : List β}
    (h : ∀ x y, f x = y ↔ r x y) : xs.map f = ys ↔ List.Forall₂ r xs ys := by
  simp only [← List.forall₂_eq_eq_eq, List.forall₂_map_left_iff, h]

/-- A walk relates a list to what its steps yield, when it is known where these come from. -/
theorem mapM_eq_ok_iff_forall₂ {ε α β : Type} {f : α → Except ε β} {r : α → β → Prop}
    {xs : List α} {ys : List β} (h : ∀ y ∈ ys, ∀ x, f x = .ok y ↔ r x y) :
    xs.mapM f = .ok ys ↔ List.Forall₂ r xs ys := by
  rw [mapM_eq_ok_iff, List.forall₂_iff_get, List.forall₂_iff_get]
  exact and_congr_right fun _ =>
    forall_congr' fun i => forall₂_congr fun _ _ => h _ (List.getElem_mem _) _

/-! ### Fields -/

theorem Scalar.ofNumber?_eq_some_iff {number : Int} {scalar : Scalar} :
    ofNumber? number = some scalar ↔ number = scalar.number := by
  constructor
  · intro h
    unfold ofNumber? at h
    split at h <;> cases h <;> rfl
  · rintro rfl
    exact ofNumber?_number scalar

/-- The numbers of scalar types are not those of groups, messages and enums. -/
theorem Scalar.isNamedType_number (scalar : Scalar) :
    FieldDescriptor.isNamedType scalar.number = false := by
  cases scalar <;> rfl

namespace FieldDescriptor

variable {raw : FieldDescriptor}

theorem fieldType?_eq_ok_iff {type : FieldType} :
    raw.fieldType? = .ok type ↔ StatesType raw.type raw.typeName type := by
  unfold fieldType?
  constructor
  · intro h
    split at h
    · cases h
    next number hnumber =>
    rw [hnumber]
    split at h
    · next hnamed =>
      split at h
      · next name hname =>
        cases h
        rw [hname]
        exact .named name (by simpa [isNamedType, or_assoc] using hnamed)
      · cases h
    · split at h
      · next scalar hscalar =>
        cases h
        rw [Scalar.ofNumber?_eq_some_iff.mp hscalar]
        exact .scalar scalar _
      · cases h
  · generalize raw.type = number, raw.typeName = typeName
    rintro (⟨scalar, typeName⟩ | ⟨name, rfl | rfl | rfl⟩)
    · simp [Scalar.isNamedType_number, Scalar.ofNumber?_number]
    all_goals rfl

theorem label?_eq_ok_iff {label : Label} :
    raw.label? = .ok label ↔ States 1 label.number raw.label := by
  rw [← getD_eq_iff_states, label?]
  split
  · next hlabel => cases label <;> simp [hlabel, Label.number]
  · next hlabel => cases label <;> simp [hlabel, Label.number]
  · next hlabel => cases label <;> simp [hlabel, Label.number]
  · next h1 h2 h3 => cases label <;> simp [Label.number] <;> assumption

theorem choice?_eq_ok_iff {choice : Option Nat} :
    raw.choice? = .ok choice ↔ raw.choice = choice.map Int.ofNat := by
  unfold choice?
  cases raw.choice with
  | none => cases choice <;> simp
  | some index =>
    by_cases hneg : index < 0
    · cases choice with
      | none => simp [hneg]
      | some position =>
        have hne : index ≠ position := by omega
        simp [hneg, hne]
    · cases choice with
      | none => simp [hneg]
      | some position =>
        have hiff : index.toNat = position ↔ index = position := by omega
        simp [hneg, hiff]

/-- **A field is what its descriptor describes.** -/
theorem toField?_eq_ok_iff {field : Field} : raw.toField? = .ok field ↔ raw.Describes field := by
  rw [toField?, bind_eq_ok_iff]
  constructor
  · rintro ⟨type, ht, h⟩
    obtain ⟨label, hl, h⟩ := bind_eq_ok_iff.mp h
    obtain ⟨choice, hc, h⟩ := bind_eq_ok_iff.mp h
    cases h
    exact {
      name := getD_eq_iff_states.mp rfl
      number := getD_eq_iff_states.mp rfl
      label := label?_eq_ok_iff.mp hl
      type := fieldType?_eq_ok_iff.mp ht
      choice := choice?_eq_ok_iff.mp hc
      jsonName := rfl
      explicitPresence := getD_eq_iff_states.mp rfl }
  · intro h
    refine ⟨_, fieldType?_eq_ok_iff.mpr h.type, bind_eq_ok_iff.mpr
      ⟨_, label?_eq_ok_iff.mpr h.label, bind_eq_ok_iff.mpr
        ⟨_, choice?_eq_ok_iff.mpr h.choice, ?_⟩⟩⟩
    rw [getD_eq_iff_states.mpr h.name, getD_eq_iff_states.mpr h.number,
      getD_eq_iff_states.mpr h.explicitPresence, h.jsonName]
    rfl

end FieldDescriptor

/-! ### Messages -/

theorem EnumDescriptor.toEnumType_eq_iff {raw : EnumDescriptor} {enum : EnumType} :
    raw.toEnumType = enum ↔ raw.Describes enum := by
  have hvalue (raw : EnumValueDescriptor) (value : EnumValue) :
      (⟨raw.name.getD "", raw.number.getD 0⟩ : EnumValue) = value ↔ raw.Describes value := by
    obtain ⟨name, number⟩ := value
    rw [EnumValue.mk.injEq, getD_eq_iff_states, getD_eq_iff_states]
    exact ⟨fun ⟨hname, hnumber⟩ => ⟨hname, hnumber⟩, fun h => ⟨h.name, h.number⟩⟩
  obtain ⟨name, values⟩ := enum
  rw [toEnumType, EnumType.mk.injEq, getD_eq_iff_states, map_eq_iff_forall₂ hvalue]
  exact ⟨fun ⟨hname, hvalues⟩ => ⟨hname, hvalues⟩, fun h => ⟨h.name, h.values⟩⟩

theorem MessageDescriptor.toMessages?_eq_mapM (messages : List MessageDescriptor) :
    toMessages? messages = messages.mapM toMessage? := by
  induction messages with
  | nil => rfl
  | cons message rest ih => rw [toMessages?, ih, List.mapM_cons]

/-- What is read inside a message is what is read without it. -/
theorem insideMessage_eq_ok_iff {α : Type} {name : String}
    {read : Except (List String × FieldFault) α} {a : α} :
    insideMessage name read = .ok a ↔ read = .ok a :=
  mapError_eq_ok_iff

/-- A message is converted part by part. -/
theorem MessageDescriptor.toMessage?_eq_ok_iff_parts {raw : MessageDescriptor}
    {message : Message} :
    raw.toMessage? = .ok message ↔
      raw.name.getD "" = message.name ∧
      raw.fields.mapM FieldDescriptor.toField? = .ok message.fields ∧
      raw.nested.mapM toMessage? = .ok message.nested ∧
      raw.enums.map EnumDescriptor.toEnumType = message.enums ∧
      raw.choices.map (·.name.getD "") = message.choices ∧
      (raw.options.bind MessageOptions.isEntry).getD false = message.isEntry := by
  obtain ⟨name, fields, nested, enums, options, choices⟩ := raw
  rw [toMessage?, bind_eq_ok_iff]
  constructor
  · rintro ⟨fields, hf, h⟩
    obtain ⟨nested, hn, h⟩ := bind_eq_ok_iff.mp h
    rw [insideMessage_eq_ok_iff, mapError_eq_ok_iff] at hf
    rw [insideMessage_eq_ok_iff, toMessages?_eq_mapM] at hn
    cases h
    exact ⟨rfl, hf, hn, rfl, rfl, rfl⟩
  · obtain ⟨_, _, _, _, _, _⟩ := message
    rintro ⟨rfl, hf, hn, rfl, rfl, rfl⟩
    refine ⟨_, insideMessage_eq_ok_iff.mpr (mapError_eq_ok_iff.mpr hf),
      bind_eq_ok_iff.mpr ⟨_, insideMessage_eq_ok_iff.mpr ?_, rfl⟩⟩
    rwa [toMessages?_eq_mapM]

/-- **A message is what its descriptor describes.** -/
theorem MessageDescriptor.toMessage?_eq_ok_iff {raw : MessageDescriptor} {message : Message} :
    raw.toMessage? = .ok message ↔ raw.Describes message := by
  induction message using Message.induction generalizing raw with
  | step message ih =>
    rw [toMessage?_eq_ok_iff_parts, getD_eq_iff_states, getD_eq_iff_states,
      mapM_eq_ok_iff_forall₂ fun _ _ _ => FieldDescriptor.toField?_eq_ok_iff,
      mapM_eq_ok_iff_forall₂ fun inner hinner _ => ih inner hinner,
      map_eq_iff_forall₂ fun _ _ => EnumDescriptor.toEnumType_eq_iff,
      map_eq_iff_forall₂ fun _ _ => getD_eq_iff_states]
    constructor
    · rintro ⟨hname, hfields, hnested, henums, hchoices, hentry⟩
      exact .intro hname hfields hnested henums hchoices hentry
    · rintro ⟨hname, hfields, hnested, henums, hchoices, hentry⟩
      exact ⟨hname, hfields, hnested, henums, hchoices, hentry⟩

/-! ### Services -/

/-- A pattern has a verb and a path when it is the pattern of the verb with the path. -/
theorem HttpPattern.verbAndPath_eq_iff {pattern : HttpPattern} {verb : Verb} {path : String} :
    pattern.verbAndPath = (verb, path) ↔ pattern = verb.toPattern path := by
  constructor
  · intro h
    cases pattern <;> cases h <;> rfl
  · rintro rfl
    exact verb.verbAndPath_toPattern path

theorem HttpRule.toBinding?_eq_some_iff {rule : HttpRule} {binding : Binding} :
    rule.toBinding? = some binding ↔ rule.Describes binding := by
  obtain ⟨verb, path, body⟩ := binding
  rw [toBinding?, Option.map_eq_some_iff]
  constructor
  · rintro ⟨pattern, hpattern, h⟩
    obtain ⟨hverb, hpath, hbody⟩ := (Binding.mk.injEq ..).mp h
    refine ⟨hpattern.trans (congrArg some ?_), ?_⟩
    · exact HttpPattern.verbAndPath_eq_iff.mp (Prod.ext hverb hpath)
    · split at hbody
      · next hempty => exact .inl ⟨hbody.symm, hempty⟩
      · next hne => exact .inr ⟨hbody.symm, hne⟩
  · rintro ⟨hpattern, hbody⟩
    refine ⟨_, hpattern, ?_⟩
    rw [Verb.verbAndPath_toPattern]
    rcases hbody with ⟨rfl, hempty⟩ | ⟨rfl, hne⟩
    · rw [if_pos hempty]
    · rw [if_neg hne]

/-- A rule binds a method as it says. -/
theorem bind_toBinding?_eq_iff {rule : Option HttpRule} {binding : Option Binding} :
    rule.bind HttpRule.toBinding? = binding ↔ StatesBinding rule binding := by
  constructor
  · rintro rfl
    cases rule with
    | none => exact .unbound
    | some rule =>
      rw [Option.bind_some]
      cases hbinding : rule.toBinding? with
      | none => exact .patternless (Option.map_eq_none_iff.mp hbinding)
      | some binding => exact .bound (HttpRule.toBinding?_eq_some_iff.mp hbinding)
  · rintro (h | _ | h)
    · exact HttpRule.toBinding?_eq_some_iff.mpr h
    · rfl
    · exact Option.map_eq_none_iff.mpr h

theorem MethodDescriptor.toMethod_eq_iff {raw : MethodDescriptor} {method : Method} :
    raw.toMethod = method ↔ raw.Describes method := by
  obtain ⟨name, input, output, clientStreaming, serverStreaming, binding⟩ := method
  simp only [toMethod, Method.mk.injEq, getD_eq_iff_states, bind_toBinding?_eq_iff]
  constructor
  · rintro ⟨hname, hinput, houtput, hclient, hserver, hbinding⟩
    exact ⟨hname, hinput, houtput, hclient, hserver, hbinding⟩
  · rintro ⟨hname, hinput, houtput, hclient, hserver, hbinding⟩
    exact ⟨hname, hinput, houtput, hclient, hserver, hbinding⟩

theorem ServiceDescriptor.toService_eq_iff {raw : ServiceDescriptor} {service : Service} :
    raw.toService = service ↔ raw.Describes service := by
  obtain ⟨name, methods⟩ := service
  rw [toService, Service.mk.injEq, getD_eq_iff_states,
    map_eq_iff_forall₂ fun _ _ => MethodDescriptor.toMethod_eq_iff]
  constructor
  · rintro ⟨hname, hmethods⟩
    exact ⟨hname, hmethods⟩
  · rintro ⟨hname, hmethods⟩
    exact ⟨hname, hmethods⟩

/-! ### Files and requests -/

theorem FileDescriptor.toFile?_eq_ok_iff {raw : FileDescriptor} {file : File} :
    raw.toFile? = .ok file ↔ raw.Describes file := by
  obtain ⟨name, package, dependencies, messages, enums, services⟩ := file
  have hmessages : (MessageDescriptor.toMessages? raw.messages) = .ok messages ↔
      List.Forall₂ MessageDescriptor.Describes raw.messages messages := by
    rw [MessageDescriptor.toMessages?_eq_mapM]
    exact mapM_eq_ok_iff_forall₂ fun _ _ _ => MessageDescriptor.toMessage?_eq_ok_iff
  have henums : raw.enums.map EnumDescriptor.toEnumType = enums ↔
      List.Forall₂ EnumDescriptor.Describes raw.enums enums :=
    map_eq_iff_forall₂ fun _ _ => EnumDescriptor.toEnumType_eq_iff
  have hservices : raw.services.map ServiceDescriptor.toService = services ↔
      List.Forall₂ ServiceDescriptor.Describes raw.services services :=
    map_eq_iff_forall₂ fun _ _ => ServiceDescriptor.toService_eq_iff
  rw [toFile?, bind_eq_ok_iff]
  constructor
  · rintro ⟨found, hfound, h⟩
    rw [mapError_eq_ok_iff] at hfound
    cases h
    exact {
      name := getD_eq_iff_states.mp rfl
      package := getD_eq_iff_states.mp rfl
      dependencies := rfl
      messages := hmessages.mp hfound
      enums := henums.mp rfl
      services := hservices.mp rfl }
  · intro h
    refine ⟨messages, mapError_eq_ok_iff.mpr (hmessages.mpr h.messages), ?_⟩
    rw [getD_eq_iff_states.mpr h.name, getD_eq_iff_states.mpr h.package, henums.mpr h.enums,
      hservices.mpr h.services, h.dependencies]
    rfl

/-- **A request is what its descriptor describes.** -/
theorem GeneratorRequest.toRequest?_eq_ok_iff {raw : GeneratorRequest} {request : Request} :
    raw.toRequest? = .ok request ↔ raw.Describes request := by
  rw [toRequest?, bind_eq_ok_iff]
  constructor
  · rintro ⟨files, hfiles, h⟩
    cases h
    exact ⟨rfl, (mapM_eq_ok_iff_forall₂ fun _ _ _ => FileDescriptor.toFile?_eq_ok_iff).mp hfiles⟩
  · obtain ⟨files, requested⟩ := request
    rintro ⟨rfl, hfiles⟩
    exact ⟨_, (mapM_eq_ok_iff_forall₂ fun _ _ _ => FileDescriptor.toFile?_eq_ok_iff).mpr hfiles,
      rfl⟩

/-! ### Every request is described -/

section Described

variable {kind : String → Int} (hkind : ∀ name, kind name = 10 ∨ kind name = 11 ∨ kind name = 14)

theorem EnumType.describes_toDescriptor (enum : EnumType) : enum.toDescriptor.Describes enum := by
  refine ⟨states_some _ _, List.forall₂_map_left_iff.mpr (List.forall₂_same.mpr ?_)⟩
  exact fun value _ => ⟨states_some _ _, states_some _ _⟩

theorem Message.listToDescriptors_eq_map (kind : String → Int) (messages : List Message) :
    Message.listToDescriptors kind messages = messages.map (Message.toDescriptor kind) := by
  induction messages with
  | nil => rfl
  | cons message rest ih => rw [Message.listToDescriptors, ih, List.map_cons]

theorem Method.describes_toDescriptor {method : Method}
    (hb : ∀ binding ∈ method.binding, binding.body ≠ some "") :
    method.toDescriptor.Describes method := by
  refine ⟨states_some _ _, states_some _ _, states_some _ _, states_some _ _, states_some _ _, ?_⟩
  rw [toDescriptor, Option.bind_some]
  cases hbinding : method.binding with
  | none => exact .unbound
  | some binding =>
    refine .bound ⟨rfl, ?_⟩
    cases hbody : binding.body with
    | none => exact .inl ⟨rfl, by rw [Binding.toRule, hbody]; rfl⟩
    | some body =>
      have hne : body ≠ "" := fun hempty => hb binding hbinding (hbody.trans (congrArg some hempty))
      have hrule : binding.toRule.body = body := by rw [Binding.toRule, hbody]; rfl
      exact .inr ⟨by rw [hrule], hrule ▸ hne⟩

theorem Service.describes_toDescriptor {service : Service}
    (hb : ∀ method ∈ service.methods, ∀ binding ∈ method.binding, binding.body ≠ some "") :
    service.toDescriptor.Describes service := by
  refine ⟨states_some _ _, List.forall₂_map_left_iff.mpr (List.forall₂_same.mpr ?_)⟩
  exact fun method hm => Method.describes_toDescriptor (hb method hm)

include hkind

theorem Field.describes_toDescriptor (field : Field) :
    (field.toDescriptor kind).Describes field where
  name := states_some _ _
  number := states_some _ _
  label := states_some _ _
  type := by
    obtain ⟨_, _, _, _, scalar | name, _, _⟩ := field
    · exact .scalar scalar none
    · exact .named name (hkind name)
  choice := rfl
  jsonName := rfl
  explicitPresence := states_some _ _

theorem Message.describes_toDescriptor (message : Message) :
    (message.toDescriptor kind).Describes message := by
  induction message using Message.induction with
  | step message ih =>
    obtain ⟨name, fields, nested, enums, choices, isEntry⟩ := message
    rw [toDescriptor, listToDescriptors_eq_map]
    refine .intro (states_some _ _) ?_ ?_ ?_ ?_ (states_some _ _)
    all_goals refine List.forall₂_map_left_iff.mpr (List.forall₂_same.mpr ?_)
    · exact fun field _ => field.describes_toDescriptor hkind
    · exact ih
    · exact fun enum _ => enum.describes_toDescriptor
    · exact fun choice _ => states_some _ _

theorem File.describes_toDescriptor {file : File}
    (hb : ∀ service ∈ file.services, ∀ method ∈ service.methods, ∀ binding ∈ method.binding,
      binding.body ≠ some "") : (file.toDescriptor kind).Describes file where
  name := states_some _ _
  package := states_some _ _
  dependencies := rfl
  messages := by
    rw [toDescriptor, Message.listToDescriptors_eq_map]
    refine List.forall₂_map_left_iff.mpr (List.forall₂_same.mpr ?_)
    exact fun message _ => message.describes_toDescriptor hkind
  enums := by
    refine List.forall₂_map_left_iff.mpr (List.forall₂_same.mpr ?_)
    exact fun enum _ => enum.describes_toDescriptor
  services := by
    refine List.forall₂_map_left_iff.mpr (List.forall₂_same.mpr ?_)
    exact fun service hs => Service.describes_toDescriptor (hb service hs)

/-- **A request is described by its descriptor**, when no body is the empty text. -/
theorem Request.describes_toDescriptor {request : Request} (parameter : String)
    (hb : ∀ file ∈ request.files, ∀ service ∈ file.services, ∀ method ∈ service.methods,
      ∀ binding ∈ method.binding, binding.body ≠ some "") :
    (request.toDescriptor kind parameter).Describes request := by
  refine ⟨rfl, List.forall₂_map_left_iff.mpr (List.forall₂_same.mpr ?_)⟩
  exact fun file hf => File.describes_toDescriptor hkind (hb file hf)

/-! ### Room for the numbers -/

/-- The descriptor of a field has the numbers of the field, and small ones. -/
theorem Field.isInt32_of_mem_numbers {field : Field} (hn : ∀ n ∈ field.numbers, IsInt32 n) :
    ∀ n ∈ (field.toDescriptor kind).numbers, IsInt32 n := by
  have hlabel : ∀ label : Label, IsInt32 label.number := by
    rintro (_ | _ | _) <;> decide
  have htype : ∀ type : FieldType, IsInt32 (type.number kind) := by
    rintro (scalar | name)
    · have hscalar : ∀ scalar : Scalar, IsInt32 scalar.number := by rintro ⟨⟩ <;> decide
      exact hscalar scalar
    · rcases hkind name with h | h | h <;> rw [FieldType.number, h] <;> decide
  simp only [numbers, List.forall_mem_cons] at hn
  simp only [toDescriptor, FieldDescriptor.numbers, Option.toList_some, List.forall_mem_append,
    List.forall_mem_singleton]
  exact ⟨⟨⟨hn.1, hlabel _⟩, htype _⟩, hn.2⟩

omit hkind in
/-- The descriptor of an enum has the numbers of the enum. -/
theorem EnumType.numbers_toDescriptor (enum : EnumType) :
    enum.toDescriptor.numbers = enum.values.map EnumValue.number := by
  rw [toDescriptor, EnumDescriptor.numbers, List.flatMap_map, List.map_eq_flatMap]
  rfl

omit hkind in
/-- The descriptors of enums have the numbers of their declarations. -/
theorem EnumType.numbers_declarations (scope : String) (inlined : Bool) (enums : List EnumType) :
    (enums.map EnumType.toDescriptor).flatMap EnumDescriptor.numbers =
      (EnumType.declarations scope inlined enums).flatMap Declaration.numbers := by
  rw [declarations, List.flatMap_map, List.flatMap_map]
  exact List.flatMap_congr fun enum _ => enum.numbers_toDescriptor

/-- The descriptor of a message has the numbers of its declarations, and small ones. -/
theorem Message.isInt32_of_mem_numbers {message : Message} {scope : String} {inlined : Bool}
    (hn : ∀ n ∈ (message.declarations scope inlined).flatMap Declaration.numbers, IsInt32 n) :
    ∀ n ∈ (message.toDescriptor kind).numbers, IsInt32 n := by
  induction message using Message.induction generalizing scope inlined with
  | step message ih =>
    rw [declarations_eq, List.flatMap_cons, List.flatMap_append, List.forall_mem_append,
      List.forall_mem_append, ← EnumType.numbers_declarations] at hn
    obtain ⟨hfields, hnested, henums⟩ := hn
    obtain ⟨name, fields, nested, enums, choices, isEntry⟩ := message
    rw [toDescriptor, listToDescriptors_eq_map, MessageDescriptor.numbers,
      MessageDescriptor.numbersOf_eq_flatMap, List.forall_mem_append, List.forall_mem_append]
    refine ⟨⟨?_, ?_⟩, henums⟩
    · rw [List.forall_mem_flatMap, List.forall_mem_map]
      intro field hf
      exact Field.isInt32_of_mem_numbers hkind (List.forall_mem_flatMap.mp hfields field hf)
    · rw [List.forall_mem_flatMap, List.forall_mem_map]
      rw [List.flatMap_assoc, List.forall_mem_flatMap] at hnested
      exact fun inner hinner => ih inner hinner (hnested inner hinner)

/-- The descriptor of a file has the numbers of the file, and small ones. -/
theorem File.isInt32_of_mem_numbers {file : File} (hn : ∀ n ∈ file.numbers, IsInt32 n) :
    ∀ n ∈ (file.toDescriptor kind).numbers, IsInt32 n := by
  rw [numbers, declarations, List.flatMap_append, Message.listDeclarations_eq_flatMap,
    List.forall_mem_append, ← EnumType.numbers_declarations, List.flatMap_assoc,
    List.forall_mem_flatMap] at hn
  rw [toDescriptor, FileDescriptor.numbers, Message.listToDescriptors_eq_map,
    List.forall_mem_append]
  refine ⟨?_, hn.2⟩
  rw [List.forall_mem_flatMap, List.forall_mem_map]
  exact fun message hm => Message.isInt32_of_mem_numbers hkind (hn.1 message hm)

/-- **Conversion reaches every request whose numbers have room in a descriptor and in which no body
is the empty text**: the request has a descriptor, and whatever describes it is converted to it,
with further rules, names of scalar types and rules without a pattern or not. -/
theorem Request.reached {request : Request} (parameter : String)
    (hn : ∀ n ∈ request.numbers, IsInt32 n)
    (hb : ∀ file ∈ request.files, ∀ service ∈ file.services, ∀ method ∈ service.methods,
      ∀ binding ∈ method.binding, binding.body ≠ some "") :
    (request.toDescriptor kind parameter).Describes request ∧
      (∀ n ∈ (request.toDescriptor kind parameter).numbers, IsInt32 n) ∧
      ∀ raw : GeneratorRequest, raw.Describes request ↔ raw.toRequest? = .ok request := by
  refine ⟨describes_toDescriptor hkind parameter hb, ?_, fun raw =>
    GeneratorRequest.toRequest?_eq_ok_iff.symm⟩
  rw [toDescriptor, GeneratorRequest.numbers, List.forall_mem_flatMap, List.forall_mem_map]
  exact fun file hf =>
    File.isInt32_of_mem_numbers hkind (List.forall_mem_flatMap.mp hn file hf)

end Described

namespace Sample

/-- A booking of a seat with a number of its own, and a service of two methods of which one can be
asked for under a verb of its own. -/
def booking : Request where
  files := [{
    name := "booking.proto"
    package := "travel"
    dependencies := ["seat.proto"]
    messages := [⟨"Booking", [
        ⟨"seat", 1, some "seat", .required, .named ".travel.Seat", none, false⟩,
        ⟨"note", 2147483647, none, .optional, .scalar .string, some 2147483647, true⟩],
      [⟨"PriceEntry", [⟨"key", 1, none, .optional, .scalar .sint64, none, false⟩], [], [], [],
        true⟩],
      [⟨"Class", [⟨"FIRST", -2147483648⟩]⟩], ["_note"], false⟩]
    enums := []
    services := [⟨"Bookings", [
      ⟨"Peek", ".travel.Booking", ".travel.Booking", false, true,
        some ⟨.custom "HEAD", "/v1/bookings", none⟩⟩,
      ⟨"Cancel", ".travel.Booking", ".travel.Booking", false, false, none⟩]⟩] }]
  requested := ["booking.proto"]

/-- A descriptor of the booking in which parts are absent for their defaults, and which says more
than the booking does: a scalar type has a name, the rule of the first method brings another rule
with it, and the second method has a rule without a pattern. -/
def bookingRaw : GeneratorRequest where
  requested := ["booking.proto"]
  parameter := none
  files := [{
    name := some "booking.proto"
    package := some "travel"
    dependencies := ["seat.proto"]
    messages := [{
      name := some "Booking"
      fields := [
        ⟨some "seat", some 1, some 2, some 14, some ".travel.Seat", none, some "seat", none⟩,
        ⟨some "note", some 2147483647, none, some 9, some "text", some 2147483647, none,
          some true⟩]
      nested := [{
        name := some "PriceEntry"
        fields := [⟨some "key", some 1, some 1, some 18, none, none, none, some false⟩]
        options := some ⟨some true⟩ }]
      enums := [⟨some "Class", [⟨some "FIRST", some (-2147483648)⟩]⟩]
      choices := [⟨some "_note"⟩] }]
    services := [⟨some "Bookings", [
      ⟨some "Peek", some ".travel.Booking", some ".travel.Booking",
        some ⟨some ⟨some (.custom ⟨"HEAD", "/v1/bookings"⟩), "", [⟨some (.get "/v1"), "", []⟩]⟩⟩,
        none, some true⟩,
      ⟨some "Cancel", some ".travel.Booking", some ".travel.Booking",
        some ⟨some ⟨none, "*", []⟩⟩, none, none⟩]⟩] }]

end Sample

/-- The booking is reached from its own descriptor, and from the one that says more. -/
theorem Request.reached_booking :
    (∀ n ∈ Sample.booking.numbers, IsInt32 n) ∧
      (∀ file ∈ Sample.booking.files, ∀ service ∈ file.services, ∀ method ∈ service.methods,
        ∀ binding ∈ method.binding, binding.body ≠ some "") ∧
      (Sample.booking.toDescriptor (fun _ => 14) "").Describes Sample.booking ∧
      (∀ n ∈ (Sample.booking.toDescriptor (fun _ => 14) "").numbers, IsInt32 n) ∧
      (Sample.booking.toDescriptor (fun _ => 14) "").toRequest? = .ok Sample.booking ∧
      Sample.bookingRaw.Describes Sample.booking := by
  have hn : ∀ n ∈ Sample.booking.numbers, IsInt32 n := by decide +kernel
  have hb : ∀ file ∈ Sample.booking.files, ∀ service ∈ file.services,
      ∀ method ∈ service.methods, ∀ binding ∈ method.binding, binding.body ≠ some "" := by decide
  obtain ⟨hdescribes, hroom, hiff⟩ := reached (fun _ => .inr (.inr rfl)) "" hn hb
  exact ⟨hn, hb, hdescribes, hroom, (hiff _).mp hdescribes, (hiff Sample.bookingRaw).mpr rfl⟩

end ProtoClient
