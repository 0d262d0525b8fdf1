import ProtoClient.Proofs.Generation
import ProtoClient.TypeScript.Declaration

/-!
# Oneofs keep the fields together

The oneofs of an object type are found from its properties, by the names of their oneofs, and its
properties are sorted into groups by these names once more when it is written. Whatever the message
declares, no property is lost or written twice on the way: the names of the oneofs are different,
each is the name of some property's oneof, and each property that belongs to a oneof has its name
among them. A message that declares its oneofs properly has the declared ones that are in use.

## Main definitions

* `Message.members message index`: the fields of the oneof at an index
* `Message.shownChoices options message`: the declared oneofs that are in use, with their fields
* `Layout`, `Layout.Places layout properties`: where an object type has its properties
* `ObjectType.layout`: the layout in which an object type is written
* `Message.GroupsFields options message object`: the oneofs of a message group its fields

## Main results

* `perm_append_flatMap_filter`: a list is split up by a key that some of its members have
* `Message.mem_choiceNames`, `Message.nodup_choiceNames`: which oneofs an object type has
* `Message.choicesOf_eq_shownChoices`: proper declarations are the oneofs that are shown
* `groupsFields_of_ofFile?`: in a module, the oneofs of each message group its fields
-/

namespace ProtoClient

variable {registry : Registry} {options : Options} {message : Message} {properties : List Property}

/-! ### Splitting up by a key -/

/-- What has its key in a list of different keys is split up by them. -/
theorem perm_flatMap_filter {α κ : Type} [DecidableEq κ] (key : α → Option κ) (xs : List α)
    {keys : List κ} (hk : keys.Nodup) :
    (keys.flatMap fun k => xs.filter (key · = some k)).Perm
      (xs.filter fun x => ∃ k ∈ keys, key x = some k) := by
  -- the induction is on the keys: what has the first key is split off from what has another
  induction keys with
  | nil => simp
  | cons k ks ih =>
    obtain ⟨hnotMem, hks⟩ := List.nodup_cons.mp hk
    have hfirst : (xs.filter fun x => ∃ k' ∈ k :: ks, key x = some k').filter (key · = some k) =
        xs.filter (key · = some k) := by
      rw [List.filter_filter]
      refine List.filter_congr fun x _ => ?_
      by_cases hx : key x = some k <;> simp [hx]
    have hrest : (xs.filter fun x => ∃ k' ∈ k :: ks, key x = some k').filter
        (fun x => !decide (key x = some k)) = xs.filter fun x => ∃ k' ∈ ks, key x = some k' := by
      rw [List.filter_filter]
      refine List.filter_congr fun x _ => ?_
      by_cases hx : key x = some k
      · simp [hx, hnotMem]
      · simp [hx]
    have hsplit := List.filter_append_perm (key · = some k)
      (xs.filter fun x => ∃ k' ∈ k :: ks, key x = some k')
    rw [hfirst, hrest] at hsplit
    rw [List.flatMap_cons]
    exact ((ih hks).append_left _).trans hsplit

/-- **A list is split up by a key that some of its members have**: into those without a key, and
those with each key. -/
theorem perm_append_flatMap_filter {α κ : Type} [DecidableEq κ] (key : α → Option κ)
    {xs : List α} {keys : List κ} (hk : keys.Nodup)
    (hc : ∀ x ∈ xs, ∀ k, key x = some k → k ∈ keys) :
    (xs.filter (fun x => (key x).isNone) ++
      keys.flatMap fun k => xs.filter (key · = some k)).Perm xs := by
  have hkeyed : xs.filter (fun x => decide (∃ k ∈ keys, key x = some k)) =
      xs.filter (fun x => !(key x).isNone) := by
    refine List.filter_congr fun x hx => ?_
    cases hkey : key x with
    | none => simp
    | some k => simp [hc x hx k hkey]
  have hsplit := List.filter_append_perm (fun x => (key x).isNone) xs
  rw [← hkeyed] at hsplit
  exact ((perm_flatMap_filter key xs hk).append_left _).trans hsplit

/-! ### The oneofs of an object type -/

namespace Message

/-- The names of the oneofs that properties belong to, the undeclared ones first. -/
def choiceNames (message : Message) (properties : List Property) : List String :=
  let used := (properties.filterMap Property.choice).eraseDups
  used.filter (!message.choices.contains ·) ++ message.choices.eraseDups.filter (used.contains ·)

theorem choicesOf_eq_map (message : Message) (properties : List Property) :
    message.choicesOf properties = (message.choiceNames properties).map fun name =>
      ⟨name, (properties.filter (·.choice = some name)).map Property.name⟩ :=
  rfl

/-- **The oneofs are those that some property belongs to.** -/
theorem mem_choiceNames {name : String} :
    name ∈ message.choiceNames properties ↔
      ∃ property ∈ properties, property.choice = some name := by
  rw [← List.mem_filterMap, choiceNames, List.mem_append, List.mem_filter, List.mem_filter]
  by_cases hd : name ∈ message.choices <;> simp [hd, List.mem_eraseDups]

/-- **The oneofs have different names**, even where a message declares one name twice. -/
theorem nodup_choiceNames (message : Message) (properties : List Property) :
    (message.choiceNames properties).Nodup := by
  refine List.nodup_append.mpr ⟨(nodup_eraseDups _).filter _, (nodup_eraseDups _).filter _, ?_⟩
  rintro name hfront other hback rfl
  have hundeclared := (List.mem_filter.mp hfront).2
  have hdeclared := List.mem_eraseDups.mp (List.mem_filter.mp hback).1
  simp [hdeclared] at hundeclared

/-- The names of the oneofs are the names of their groups. -/
theorem map_name_choicesOf (message : Message) (properties : List Property) :
    (message.choicesOf properties).map Choice.name = message.choiceNames properties := by
  rw [choicesOf_eq_map, List.map_map]
  exact List.map_id' _

/-- Without oneofs no property belongs to one. -/
theorem choice_eq_none_of_choicesOf (h : message.choicesOf properties = []) {property : Property}
    (hp : property ∈ properties) : property.choice = none := by
  refine Option.eq_none_iff_forall_ne_some.mpr fun name hname => ?_
  have hmem : name ∈ message.choiceNames properties := mem_choiceNames.mpr ⟨property, hp, hname⟩
  rw [← map_name_choicesOf, h] at hmem
  cases hmem

/-! ### Proper declarations -/

/-- **The fields of the oneof at an index**, in order. A field with explicit presence is in a oneof
of its own, which is not shown. -/
def members (message : Message) (index : Nat) : List Field :=
  message.fields.filter fun field => field.choice = some index ∧ field.explicitPresence = false

/-- **A message declares its oneofs properly** when they have different names and its fields belong
to declared ones. -/
structure DeclaresChoices (message : Message) : Prop where
  nodup : message.choices.Nodup
  declared : ∀ field ∈ message.fields, ∀ index, field.choice = some index →
    field.explicitPresence = false → index < message.choices.length

/-- **The declared oneofs that are in use**, in the order of their declarations, with the property
names of their fields. -/
def shownChoices (options : Options) (message : Message) : List Choice :=
  let used := message.choices.zipIdx.filter fun (_, index) => !(message.members index).isEmpty
  used.map fun (name, index) =>
    ⟨name, (message.members index).map (·.propertyName options.protoNames)⟩

/-- Under proper declarations the fields of a oneof are known by its name. -/
theorem DeclaresChoices.choiceOf?_eq_some_iff (h : message.DeclaresChoices) {field : Field}
    (hf : field ∈ message.fields) {index : Nat} {name : String}
    (hi : message.choices[index]? = some name) :
    message.choiceOf? field = some name ↔
      field.choice = some index ∧ field.explicitPresence = false := by
  unfold choiceOf?
  cases hc : field.choice with
  | none => simp
  | some other =>
    cases he : field.explicitPresence with
    | true => simp
    | false =>
      have hother := List.getElem?_eq_getElem (h.declared field hf other hc he)
      simp only [choiceName, hother, Bool.false_eq_true, if_false, Option.some.injEq, and_true]
      constructor
      · rintro rfl
        have hlt := (List.getElem?_eq_some_iff.mp hother).1
        exact (List.getElem?_inj hlt h.nodup).mp (hother.trans hi.symm)
      · rintro rfl
        exact Option.some.inj (hother.symm.trans hi)

/-- Under proper declarations a field belongs to a declared oneof or to none. -/
theorem DeclaresChoices.mem_choices (h : message.DeclaresChoices) {field : Field}
    (hf : field ∈ message.fields) {name : String} (hname : message.choiceOf? field = some name) :
    name ∈ message.choices := by
  unfold choiceOf? at hname
  cases hc : field.choice with
  | none => simp [hc] at hname
  | some index =>
    cases he : field.explicitPresence with
    | true => simp [hc, he] at hname
    | false =>
      have hlt := h.declared field hf index hc he
      simp only [hc, he, choiceName, List.getElem?_eq_getElem hlt, Bool.false_eq_true, if_false,
        Option.some.injEq] at hname
      exact hname ▸ List.getElem_mem hlt

/-- The properties have the names and oneofs of the fields, in order. -/
theorem map_choice_name_of_mapM {source : String}
    (hp : message.fields.mapM (message.property registry options source) = .ok properties) :
    properties.map (fun property => (property.choice, property.name)) =
      message.fields.map fun field =>
        (message.choiceOf? field, field.propertyName options.protoNames) := by
  refine map_of_mapM (fun field property hproperty => ?_) hp
  obtain ⟨type, -, rfl⟩ := property_eq_ok_iff.mp hproperty
  rfl

/-- The properties of a oneof are those of its fields. -/
theorem DeclaresChoices.map_name_filter (h : message.DeclaresChoices) {source : String}
    (hp : message.fields.mapM (message.property registry options source) = .ok properties)
    {index : Nat} {name : String} (hi : message.choices[index]? = some name) :
    (properties.filter (·.choice = some name)).map Property.name =
      (message.members index).map (·.propertyName options.protoNames) := by
  have hmembers : message.fields.filter (fun field => message.choiceOf? field = some name) =
      message.members index :=
    List.filter_congr fun field hf => decide_eq_decide.mpr (h.choiceOf?_eq_some_iff hf hi)
  have hfilter := congrArg
    (fun pairs => (pairs.filter fun pair => pair.1 = some name).map Prod.snd)
    (map_choice_name_of_mapM hp)
  simp only [List.filter_map, List.map_map] at hfilter
  rw [← hmembers]
  exact hfilter

/-- Under proper declarations the oneofs of properties are the declared ones in use, in order. -/
theorem DeclaresChoices.choiceNames_eq (h : message.DeclaresChoices) {source : String}
    (hp : message.fields.mapM (message.property registry options source) = .ok properties) :
    message.choiceNames properties =
      message.choices.filter (· ∈ properties.filterMap Property.choice) := by
  have hundeclared : (properties.filterMap Property.choice).eraseDups.filter
      (!message.choices.contains ·) = [] := by
    refine List.filter_eq_nil_iff.mpr fun name hname => ?_
    obtain ⟨property, hproperty, hchoice⟩ := List.mem_filterMap.mp (List.mem_eraseDups.mp hname)
    obtain ⟨field, hf, hfield⟩ := exists_of_mem_of_mapM hp hproperty
    obtain ⟨type, -, rfl⟩ := property_eq_ok_iff.mp hfield
    simpa using h.mem_choices hf hchoice
  rw [choiceNames, hundeclared, List.nil_append, eraseDups_of_nodup h.nodup]
  refine List.filter_congr fun name _ => ?_
  simp [List.mem_eraseDups]

/-- **Proper declarations are the oneofs that are shown**, as far as they are in use. -/
theorem choicesOf_eq_shownChoices (h : message.DeclaresChoices) {source : String}
    (hp : message.fields.mapM (message.property registry options source) = .ok properties) :
    message.choicesOf properties = message.shownChoices options := by
  have hpositions : message.choices.zipIdx.map Prod.fst = message.choices := List.zipIdx_map_fst ..
  have hmembers : ∀ entry ∈ message.choices.zipIdx,
      (properties.filter (·.choice = some entry.1)).map Property.name =
        (message.members entry.2).map (·.propertyName options.protoNames) := fun entry hentry =>
    h.map_name_filter hp (List.mem_zipIdx_iff_getElem?.mp hentry)
  have hused : ∀ entry ∈ message.choices.zipIdx,
      decide (entry.1 ∈ properties.filterMap Property.choice) =
        !(message.members entry.2).isEmpty := by
    intro entry hentry
    have hnil := congrArg List.isEmpty (hmembers entry hentry)
    rw [List.isEmpty_map, List.isEmpty_map] at hnil
    rw [← hnil, Bool.eq_iff_iff]
    simp
  rw [choicesOf_eq_map, h.choiceNames_eq hp, ← hpositions, List.filter_map, List.map_map]
  refine (congrArg _ (List.filter_congr hused)).trans (List.map_congr_left fun entry hentry => ?_)
  exact congrArg (Choice.mk entry.1) (hmembers entry (List.mem_of_mem_filter hentry))

end Message

/-! ### The layout of an object type -/

/-- **Where an object type has its properties**: in its base type, or in the group of a oneof. -/
structure Layout where
  base : List Property
  groups : List (String × List Property)

namespace Layout

/-- The line of a group. All its properties are required. -/
def groupLine (members : List Property) : String :=
  let required := members.map fun property =>
    propertyKey property.name ++ ": " ++ property.typeText
  "  & OneOf<\x7b " ++ "; ".intercalate required ++ " \x7d>"

/-- **The lines of an object type with a layout.** The properties of the base type may be absent. -/
def lines (layout : Layout) (identifier : String) : List String :=
  let optional := layout.base.map fun property =>
    "  " ++ propertyKey property.name ++ "?: " ++ property.typeText
  match layout.groups with
  | [] => ["export type " ++ identifier ++ " = \x7b"] ++ optional ++ ["\x7d"]
  | groups =>
    let base := identifier ++ "$$Base"
    ["type " ++ base ++ " = \x7b"] ++ optional ++
      ["\x7d", "", "export type " ++ identifier ++ " = " ++ base] ++
      groups.map fun (_, members) => groupLine members

/-- **A layout places properties**, each of them once: in the base type when it belongs to no
oneof, and else in the one group of its oneof. -/
structure Places (layout : Layout) (properties : List Property) : Prop where
  /-- What stands in the base type and in the groups are the properties, as often as they occur. -/
  perm : (layout.base ++ layout.groups.flatMap Prod.snd).Perm properties
  /-- The properties of the base type belong to no oneof. -/
  base_choice : ∀ property ∈ layout.base, property.choice = none
  /-- The properties of a group belong to the oneof of the group. -/
  group_choice : ∀ group ∈ layout.groups, ∀ property ∈ group.2, property.choice = some group.1
  /-- There is one group for each oneof. -/
  nodup : (layout.groups.map Prod.fst).Nodup
  /-- The properties of the base type are in the order of the properties. -/
  base_sublist : layout.base.Sublist properties
  /-- So are those of each group. -/
  group_sublist : ∀ group ∈ layout.groups, group.2.Sublist properties

end Layout

/-- **The layout in which an object type is written.** -/
def ObjectType.layout (object : ObjectType) : Layout where
  base := object.baseProperties
  groups := object.choices.map fun choice => (choice.name, object.choiceProperties choice)

/-- An object type is written in its layout, when without oneofs no property belongs to one. -/
theorem ObjectType.lines_eq_layout {object : ObjectType}
    (h : object.choices = [] → ∀ property ∈ object.properties, property.choice = none) :
    object.lines = object.layout.lines object.identifier := by
  unfold lines Layout.lines layout
  cases hc : object.choices with
  | nil =>
    have hbase : object.baseProperties = object.properties :=
      List.filter_eq_self.mpr fun property hp => by simp [h hc property hp]
    rw [hbase]
    rfl
  | cons choice choices =>
    have hlines : (choice :: choices).map object.choiceLine =
        ((choice :: choices).map fun choice => (choice.name, object.choiceProperties choice)).map
          fun (_, members) => Layout.groupLine members := by
      rw [List.map_map]
      rfl
    rw [hlines]
    rfl

/-- **A layout places the properties of an object type** whose oneofs are found from them. -/
theorem ObjectType.places_layout {object : ObjectType} {message : Message}
    (h : object.choices = message.choicesOf object.properties) :
    object.layout.Places object.properties := by
  have hnames : object.choices.map Choice.name = message.choiceNames object.properties := by
    rw [h, Message.map_name_choicesOf]
  have hgroups : object.layout.groups.flatMap Prod.snd =
      (message.choiceNames object.properties).flatMap fun name =>
        object.properties.filter (·.choice = some name) := by
    rw [← hnames, List.flatMap_map]
    exact List.flatMap_map ..
  constructor
  case perm =>
    rw [hgroups]
    exact perm_append_flatMap_filter Property.choice (Message.nodup_choiceNames ..)
      fun property hp name hname => Message.mem_choiceNames.mpr ⟨property, hp, hname⟩
  case base_choice =>
    exact fun property hp => Option.isNone_iff_eq_none.mp (List.mem_filter.mp hp).2
  case group_choice =>
    intro group hgroup property hp
    obtain ⟨choice, -, rfl⟩ := List.mem_map.mp hgroup
    exact of_decide_eq_true (List.mem_filter.mp hp).2
  case nodup =>
    have hfst : object.layout.groups.map Prod.fst = object.choices.map Choice.name :=
      List.map_map ..
    rw [hfst, hnames]
    exact Message.nodup_choiceNames ..
  case base_sublist => exact List.filter_sublist
  case group_sublist =>
    intro group hgroup
    obtain ⟨choice, -, rfl⟩ := List.mem_map.mp hgroup
    exact List.filter_sublist

/-- **The oneofs of a message group its fields** in an object type. -/
structure Message.GroupsFields (options : Options) (message : Message) (object : ObjectType) :
    Prop where
  /-- Each field has a property, in order. -/
  fields : object.properties.map Property.protoName = message.fields.map Field.name
  /-- Under proper declarations, the oneofs are the declared ones that are in use. -/
  choices : message.DeclaresChoices → object.choices = message.shownChoices options
  /-- The object type is written in its layout. -/
  lines : object.lines = object.layout.lines object.identifier
  /-- The layout places the properties. -/
  places : object.layout.Places object.properties

/-- The oneofs of a message group its fields in the object type of the message. -/
theorem Message.groupsFields_of_objectType {source name : String} {object : ObjectType}
    (h : message.objectType registry options source name = .ok object) :
    message.GroupsFields options object := by
  obtain ⟨properties, hp, rfl⟩ := objectType_eq_ok_iff.mp h
  constructor
  case fields =>
    refine map_of_mapM (fun field property hproperty => ?_) hp
    obtain ⟨type, -, rfl⟩ := property_eq_ok_iff.mp hproperty
    rfl
  case choices => exact fun hd => choicesOf_eq_shownChoices hd hp
  case lines =>
    exact ObjectType.lines_eq_layout fun hnil property => choice_eq_none_of_choicesOf hnil
  case places => exact ObjectType.places_layout rfl

/-- **In a module, the oneofs of each message group its fields**: proper declarations are shown as
they are, and whatever is declared, each property is written once. -/
theorem groupsFields_of_ofFile? {file : File} {module : ClientModule}
    (h : ClientModule.ofFile? registry options file = .ok module) :
    List.Forall₂ (fun (_, message) object => message.GroupsFields options object) file.shownMessages
      module.objects := by
  obtain ⟨objects, clients, hobjects, -, rfl⟩ := ClientModule.ofFile?_eq_ok_iff.mp h
  exact forall₂_of_mapM (fun _ _ _ => Message.groupsFields_of_objectType) hobjects

namespace Sample

/-- A payment, whose oneofs are used alternately and one of them not at all, and a parcel, which
declares one name twice and has a field in a oneof that it does not declare. -/
def payment : File where
  name := "shop/payment.proto"
  package := "shop"
  dependencies := []
  messages := [
    ⟨"Payment", [
      ⟨"card_number", 1, none, .optional, .scalar .string, some 1, false⟩,
      ⟨"amount", 2, none, .optional, .scalar .int64, none, false⟩,
      ⟨"shop_id", 3, none, .optional, .scalar .string, some 0, false⟩,
      ⟨"cash", 4, none, .optional, .scalar .bool, some 1, false⟩,
      ⟨"note", 5, none, .optional, .scalar .string, some 3, true⟩],
      [], [], ["receiver", "means", "unused", "_note"], false⟩,
    ⟨"Parcel", [
      ⟨"box", 1, none, .optional, .scalar .bool, some 1, false⟩,
      ⟨"bag", 2, none, .optional, .scalar .bool, some 0, false⟩,
      ⟨"stamp", 3, none, .optional, .scalar .string, some 7, false⟩],
      [], [], ["wrap", "wrap"], false⟩]
  enums := []
  services := []

/-- The object types of the payment and of the parcel. -/
def paymentLines : List String := [
  "type shop$Payment$$Base = \x7b", "  amount?: string", "  note?: string", "\x7d", "",
  "export type shop$Payment = shop$Payment$$Base",
  "  & OneOf<\x7b shopId: string \x7d>",
  "  & OneOf<\x7b cardNumber: string; cash: boolean \x7d>",
  "type shop$Parcel$$Base = \x7b", "\x7d", "",
  "export type shop$Parcel = shop$Parcel$$Base",
  "  & OneOf<\x7b stamp: string \x7d>",
  "  & OneOf<\x7b box: boolean; bag: boolean \x7d>"]

end Sample

/-- The payment has its oneofs as they are declared, and in the parcel the fields of both oneofs of
one name stand together. -/
theorem groupsFields_payment :
    ∃ registry module, Registry.ofFiles [Sample.payment] = .ok registry ∧
      ClientModule.ofFile? registry {} Sample.payment = .ok module ∧
      module.objects.flatMap ObjectType.lines = Sample.paymentLines ∧
      List.Forall₂ (fun (_, message) object => message.GroupsFields {} object)
        Sample.payment.shownMessages module.objects := by
  have hrun : ((Registry.ofFiles [Sample.payment]).mapError .fault >>= fun registry =>
      (ClientModule.ofFile? registry {} Sample.payment).map fun module =>
        module.objects.flatMap ObjectType.lines) = .ok Sample.paymentLines := by decide +kernel
  obtain ⟨registry, module, hreg, hmodule, hlines⟩ := exists_module_of_map hrun
  exact ⟨registry, module, hreg, hmodule, hlines, groupsFields_of_ofFile? hmodule⟩

end ProtoClient
