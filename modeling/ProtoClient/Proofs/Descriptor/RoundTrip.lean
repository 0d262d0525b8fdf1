import Mathlib.Logic.Basic
import ProtoClient.Proofs.Descriptor.Reading

/-!
# Decoding what was encoded

The bytes of a request decode to the request, as long as no chain of messages, each embedded in the
one before, is longer than the limit; the bytes of a request with a longer chain do not decode.
Below the request every message takes one level of a budget that the records around it share, so the
statement about a message is for all budgets: it decodes exactly when the budget covers its depth.

## Main definitions

* `MessageDescriptor.depth`, `HttpRule.depth`, ..., `GeneratorRequest.depth`: the length of the
  longest chain of messages below a value
* `FieldDescriptor.numbers`, ..., `GeneratorRequest.numbers`: the numbers with a sign in a value
* `GeneratorRequest.lengths`: the lengths that stand in front of the parts of a request

## Main results

* `MessageDescriptor.decodesTo`, `HttpRule.decodesTo`: messages nest, and rules bring rules
* `FileDescriptor.decodesTo`: a file decodes within its depth
* `GeneratorRequest.decode?_encode_eq`: a request decodes to itself up to the depth limit
-/

namespace ProtoClient

open Text

/-! ### Depths -/

/-- The depth of an enum: its values are embedded in it. -/
def EnumDescriptor.depth (enum : EnumDescriptor) : Nat :=
  levels (enum.values.map fun _ => 0)

mutual

/-- **The depth of a message**: fields, nested messages, enums, options and oneofs are embedded in
it. -/
def MessageDescriptor.depth : MessageDescriptor → Nat
  | ⟨_, fields, nested, enums, options, choices⟩ =>
    levels (fields.map (fun _ => 0) ++ MessageDescriptor.depths nested ++
      enums.map EnumDescriptor.depth ++ options.toList.map (fun _ => 0) ++
      choices.map fun _ => 0)

/-- The depths of messages. -/
def MessageDescriptor.depths : List MessageDescriptor → List Nat
  | [] => []
  | message :: rest => message.depth :: MessageDescriptor.depths rest

end

/-- The depths of what is embedded in a pattern: only a custom one is a message. -/
def HttpPattern.depths : HttpPattern → List Nat
  | .custom _ => [0]
  | _ => []

mutual

/-- **The depth of a rule**: its custom pattern and the rules that it brings with it are embedded in
it. -/
def HttpRule.depth : HttpRule → Nat
  | ⟨pattern, _, additional⟩ =>
    levels (pattern.toList.flatMap HttpPattern.depths ++ HttpRule.depths additional)

/-- The depths of rules. -/
def HttpRule.depths : List HttpRule → List Nat
  | [] => []
  | rule :: rest => rule.depth :: HttpRule.depths rest

end

/-- The depth of the options of a method. -/
def MethodOptions.depth (options : MethodOptions) : Nat :=
  levels (options.http.toList.map HttpRule.depth)

/-- The depth of a method. -/
def MethodDescriptor.depth (method : MethodDescriptor) : Nat :=
  levels (method.options.toList.map MethodOptions.depth)

/-- The depth of a service. -/
def ServiceDescriptor.depth (service : ServiceDescriptor) : Nat :=
  levels (service.methods.map MethodDescriptor.depth)

/-- The depth of a file. -/
def FileDescriptor.depth (file : FileDescriptor) : Nat :=
  levels (file.messages.map MessageDescriptor.depth ++ file.enums.map EnumDescriptor.depth ++
    file.services.map ServiceDescriptor.depth)

/-- **The depth of a request**: the length of the longest chain of messages below it, each embedded
in the one before. -/
def GeneratorRequest.depth (request : GeneratorRequest) : Nat :=
  levels (request.files.map FileDescriptor.depth)

/-! ### Numbers and lengths -/

def FieldDescriptor.numbers (field : FieldDescriptor) : List Int :=
  field.number.toList ++ field.label.toList ++ field.type.toList ++ field.choice.toList

def EnumDescriptor.numbers (enum : EnumDescriptor) : List Int :=
  enum.values.flatMap fun value => value.number.toList

mutual

/-- The numbers with a sign in a message and in those nested in it. -/
def MessageDescriptor.numbers : MessageDescriptor → List Int
  | ⟨_, fields, nested, enums, _, _⟩ =>
    fields.flatMap FieldDescriptor.numbers ++ MessageDescriptor.numbersOf nested ++
      enums.flatMap EnumDescriptor.numbers

/-- The numbers with a sign in messages. -/
def MessageDescriptor.numbersOf : List MessageDescriptor → List Int
  | [] => []
  | message :: rest => message.numbers ++ MessageDescriptor.numbersOf rest

end

def FileDescriptor.numbers (file : FileDescriptor) : List Int :=
  file.messages.flatMap MessageDescriptor.numbers ++ file.enums.flatMap EnumDescriptor.numbers

/-- **The numbers with a sign in a request.** -/
def GeneratorRequest.numbers (request : GeneratorRequest) : List Int :=
  request.files.flatMap FileDescriptor.numbers

/-- **The lengths that stand in front of the parts of a request.** Those inside a file are smaller
than that of the file. -/
def GeneratorRequest.lengths (request : GeneratorRequest) : List Nat :=
  request.requested.map (fun name => (utf8 name).length) ++
    request.parameter.toList.map (fun parameter => (utf8 parameter).length) ++
    request.files.map fun file => file.encode.length

/-! ### Messages and rules as lists of their parts -/

theorem MessageDescriptor.depths_eq_map (messages : List MessageDescriptor) :
    depths messages = messages.map depth := by
  induction messages with
  | nil => rfl
  | cons message rest ih => rw [depths, ih, List.map_cons]

theorem MessageDescriptor.numbersOf_eq_flatMap (messages : List MessageDescriptor) :
    numbersOf messages = messages.flatMap numbers := by
  induction messages with
  | nil => rfl
  | cons message rest ih => rw [numbersOf, ih, List.flatMap_cons]

theorem MessageDescriptor.encodeList_eq_flatMap (messages : List MessageDescriptor) :
    encodeList messages = messages.flatMap fun message => encodeEmbedded 3 message.encode := by
  induction messages with
  | nil => rfl
  | cons message rest ih => rw [encodeList, ih, List.flatMap_cons]

theorem HttpRule.depths_eq_map (rules : List HttpRule) : depths rules = rules.map depth := by
  induction rules with
  | nil => rfl
  | cons rule rest ih => rw [depths, ih, List.map_cons]

theorem HttpRule.encodeList_eq_flatMap (rules : List HttpRule) :
    encodeList rules = rules.flatMap fun rule => encodeEmbedded 11 rule.encode := by
  induction rules with
  | nil => rfl
  | cons rule rest ih => rw [encodeList, ih, List.flatMap_cons]

/-! ### Messages without embedded ones -/

section Leaf

variable {budget : Nat}

theorem FieldDescriptor.decode?_encode {field : FieldDescriptor}
    (hlen : field.encode.length < 2 ^ 64) (hn : ∀ n ∈ field.numbers, IsInt32 n) :
    decode? budget field.encode = some field := by
  simp only [encode, List.length_append] at hlen
  simp only [numbers, List.mem_append, Option.mem_toList, or_imp, forall_and] at hn
  obtain ⟨⟨⟨hnumber, hlabel⟩, htype⟩, hchoice⟩ := hn
  have hname := reads_text (merge budget) 1 field.name
    (fun name start => { start with name := name.or start.name })
    (by decide) (by omega) ⟨fun _ _ => rfl, fun _ => rfl⟩
  have hnumber := reads_int32 (merge budget) 3 field.number
    (fun number start => { start with number := number.or start.number })
    (by decide) hnumber ⟨fun _ _ => rfl, fun _ => rfl⟩
  have hlabel := reads_int32 (merge budget) 4 field.label
    (fun label start => { start with label := label.or start.label })
    (by decide) hlabel ⟨fun _ _ => rfl, fun _ => rfl⟩
  have htype := reads_int32 (merge budget) 5 field.type
    (fun type start => { start with type := type.or start.type })
    (by decide) htype ⟨fun _ _ => rfl, fun _ => rfl⟩
  have htypeName := reads_text (merge budget) 6 field.typeName
    (fun typeName start => { start with typeName := typeName.or start.typeName })
    (by decide) (by omega) ⟨fun _ _ => rfl, fun _ => rfl⟩
  have hchoice := reads_int32 (merge budget) 9 field.choice
    (fun choice start => { start with choice := choice.or start.choice })
    (by decide) hchoice ⟨fun _ _ => rfl, fun _ => rfl⟩
  have hjsonName := reads_text (merge budget) 10 field.jsonName
    (fun jsonName start => { start with jsonName := jsonName.or start.jsonName })
    (by decide) (by omega) ⟨fun _ _ => rfl, fun _ => rfl⟩
  have hflag := reads_flag (merge budget) 17 field.explicitPresence
    (fun flag start => { start with explicitPresence := flag.or start.explicitPresence })
    (by decide) ⟨fun _ _ => rfl, fun _ => rfl⟩
  have hall := hname.append hnumber |>.append hlabel |>.append htype |>.append htypeName
    |>.append hchoice |>.append hjsonName |>.append hflag
  rw [decode?, encode, hall.readInto_eq]
  simp

theorem ChoiceDescriptor.decode?_encode {choice : ChoiceDescriptor}
    (hlen : choice.encode.length < 2 ^ 64) : decode? budget choice.encode = some choice := by
  have hname := reads_text (merge budget) 1 choice.name
    (fun name start => { start with name := name.or start.name })
    (by decide) hlen ⟨fun _ _ => rfl, fun _ => rfl⟩
  rw [decode?, encode, hname.readInto_eq]
  simp

theorem EnumValueDescriptor.decode?_encode {value : EnumValueDescriptor}
    (hlen : value.encode.length < 2 ^ 64) (hn : ∀ n ∈ value.number, IsInt32 n) :
    decode? budget value.encode = some value := by
  simp only [encode, List.length_append] at hlen
  have hname := reads_text (merge budget) 1 value.name
    (fun name start => { start with name := name.or start.name })
    (by decide) (by omega) ⟨fun _ _ => rfl, fun _ => rfl⟩
  have hnumber := reads_int32 (merge budget) 2 value.number
    (fun number start => { start with number := number.or start.number })
    (by decide) hn ⟨fun _ _ => rfl, fun _ => rfl⟩
  rw [decode?, encode, (hname.append hnumber).readInto_eq]
  simp

theorem MessageOptions.decodeInto?_encode (options : MessageOptions) :
    decodeInto? {} budget options.encode = some options := by
  have hisEntry := reads_flag (merge budget) 7 options.isEntry
    (fun isEntry start => { start with isEntry := isEntry.or start.isEntry })
    (by decide) ⟨fun _ _ => rfl, fun _ => rfl⟩
  rw [decodeInto?, encode, hisEntry.readInto_eq]
  simp

theorem CustomPattern.decodeInto?_encode {pattern : CustomPattern}
    (hlen : pattern.encode.length < 2 ^ 64) :
    decodeInto? {} budget pattern.encode = some pattern := by
  simp only [encode, List.length_append] at hlen
  have hkind := reads_encodeNonempty (merge budget) 1 pattern.kind
    (fun kind start => { start with kind }) (by decide) (by omega) (fun _ _ => rfl)
  have hpath := reads_encodeNonempty (merge budget) 2 pattern.path
    (fun path start => { start with path }) (by decide) (by omega) (fun _ _ => rfl)
  rw [decodeInto?, encode, (hkind.append hpath).readInto_eq]
  obtain ⟨kind, path⟩ := pattern
  by_cases hk : kind = "" <;> by_cases hp : path = "" <;> simp [hk, hp]

end Leaf

/-- What decodes whatever the budget decodes within the depth of a message without embedded ones. -/
theorem decodesTo_zero {β : Type} {decode : Nat → List UInt8 → Option β} {bytes : List UInt8}
    {value : β} (h : ∀ budget, decode budget bytes = some value) :
    DecodesTo decode bytes value 0 := by
  intro budget
  rw [h budget, if_pos (Nat.zero_le budget)]

/-! ### Messages -/

theorem EnumDescriptor.decodesTo {enum : EnumDescriptor} (hlen : enum.encode.length < 2 ^ 64)
    (hn : ∀ n ∈ enum.numbers, IsInt32 n) : DecodesTo decode? enum.encode enum enum.depth := by
  intro budget
  simp only [encode, List.length_append] at hlen
  have hvalues : ∀ value ∈ enum.values, value.encode.length < 2 ^ 64 :=
    length_lt_of_embedded 2 (by omega)
  have hinner : ∀ value ∈ enum.values,
      DecodesTo EnumValueDescriptor.decode? value.encode value 0 := by
    intro value hv
    refine decodesTo_zero fun _ => EnumValueDescriptor.decode?_encode (hvalues value hv) ?_
    intro n hnumber
    exact hn n (List.mem_flatMap.mpr ⟨value, hv, Option.mem_toList.mpr hnumber⟩)
  have hname := reads_text (merge budget) 1 enum.name
    (fun name start => { start with name := name.or start.name })
    (by decide) (by omega) ⟨fun _ _ => rfl, fun _ => rfl⟩
  have hlist := reads_embedded (merge budget) 2
    (fun values start => { start with values := start.values ++ values })
    (by decide) hvalues hinner ⟨fun _ _ => rfl, fun _ => by rw [List.append_nil], by simp⟩
  rw [decode?, encode, (hname.append hlist).readInto_eq]
  simp only [depth, Option.bind_some, Option.or_none, List.nil_append]
  rfl

/-- **Messages nest**: a message decodes within its depth when those nested in it do. -/
theorem MessageDescriptor.decodesTo {message : MessageDescriptor}
    (hlen : message.encode.length < 2 ^ 64) (hn : ∀ n ∈ message.numbers, IsInt32 n) :
    DecodesTo decode? message.encode message message.depth := by
  induction message using MessageDescriptor.induction with
  | step message ih =>
    obtain ⟨name, fields, nested, enums, options, choices⟩ := message
    intro budget
    simp only [encode, encodeList_eq_flatMap, List.length_append] at hlen
    simp only [numbers, numbersOf_eq_flatMap, List.mem_append, List.mem_flatMap, or_imp,
      forall_and, forall_exists_index, and_imp] at hn
    obtain ⟨⟨hfieldNumbers, hnestedNumbers⟩, henumNumbers⟩ := hn
    have hfieldLengths : ∀ field ∈ fields, field.encode.length < 2 ^ 64 :=
      length_lt_of_embedded 2 (by omega)
    have hnestedLengths : ∀ inner ∈ nested, inner.encode.length < 2 ^ 64 :=
      length_lt_of_embedded 3 (by omega)
    have henumLengths : ∀ enum ∈ enums, enum.encode.length < 2 ^ 64 :=
      length_lt_of_embedded 4 (by omega)
    have hchoiceLengths : ∀ choice ∈ choices, choice.encode.length < 2 ^ 64 :=
      length_lt_of_embedded 8 (by omega)
    have hname := reads_text (mergeWithin budget) 1 name
      (fun name start => { start with name := name.or start.name })
      (by decide) (by omega) ⟨fun _ _ => rfl, by rintro ⟨⟩; rfl⟩
    have hfields := reads_embedded (mergeWithin budget) 2
      (fun fields start => { start with fields := start.fields ++ fields }) (by decide)
      hfieldLengths (fun field hf => decodesTo_zero fun _ =>
        FieldDescriptor.decode?_encode (hfieldLengths field hf) (hfieldNumbers · field hf))
      ⟨fun _ _ => rfl, by rintro ⟨⟩; simp, by simp⟩
    have hnested := reads_embedded (mergeWithin budget) 3
      (fun nested start => { start with nested := start.nested ++ nested }) (by decide)
      hnestedLengths
      (fun inner hm => ih inner hm (hnestedLengths inner hm) (hnestedNumbers · inner hm))
      ⟨mergeWithin_nested budget, by rintro ⟨⟩; simp, by simp⟩
    have henums := reads_embedded (mergeWithin budget) 4
      (fun enums start => { start with enums := start.enums ++ enums }) (by decide)
      henumLengths
      (fun enum he => EnumDescriptor.decodesTo (henumLengths enum he) (henumNumbers · enum he))
      ⟨fun _ _ => rfl, by rintro ⟨⟩; simp, by simp⟩
    have hoptions := reads_encodeOption_embedded (mergeWithin budget) 7 MessageOptions.encode
      options (by decide) (by omega)
    have hchoices := reads_embedded (mergeWithin budget) 8
      (fun choices start => { start with choices := start.choices ++ choices }) (by decide)
      hchoiceLengths (fun choice hc => decodesTo_zero fun _ =>
        ChoiceDescriptor.decode?_encode (hchoiceLengths choice hc))
      ⟨fun _ _ => rfl, by rintro ⟨⟩; simp, by simp⟩
    have hall := hname.append hfields |>.append hnested |>.append henums |>.append hoptions
      |>.append hchoices
    have hsingle := elim_embedded (mergeWithin budget) 7 options
      (fun options start => { start with options }) { name, fields, nested, enums }
      (fun options _ => decodesTo_zero fun _ => MessageOptions.decodeInto?_encode options)
      (fun _ => rfl) rfl
    rw [decode?_eq, encode, encodeList_eq_flatMap, hall.readInto_eq]
    simp only [depth, depths_eq_map, levels_append, Nat.max_le, ite_and, bind_ite,
      Option.bind_some, Option.or_none, List.nil_append, hsingle]

/-! ### Rules -/

section Rules

variable {simple : HttpPattern} {inner : CustomPattern} {body : String}
  {additional : List HttpRule}

theorem HttpPattern.isTag_tag (pattern : HttpPattern) : IsTag pattern.tag := by
  cases pattern <;> exact ⟨by simp [tag], by simp [tag]⟩

theorem HttpRule.encode_none :
    encode { body, additional } = encodeNonempty 7 body ++
      additional.flatMap fun rule => encodeEmbedded 11 rule.encode := by
  rw [← encodeList_eq_flatMap]
  rfl

theorem HttpRule.encode_simple (hs : simple.depths = []) :
    encode { pattern := some simple, body, additional } =
      simple.encode ++ encodeNonempty 7 body ++
        additional.flatMap fun rule => encodeEmbedded 11 rule.encode := by
  rw [← encodeList_eq_flatMap]
  cases simple with
  | custom inner => cases hs
  | get path | put path | post path | delete path | patch path => rfl

theorem HttpRule.encode_custom :
    encode { pattern := some (.custom inner), body, additional } =
      encodeNonempty 7 body ++ encodeEmbedded 8 inner.encode ++
        additional.flatMap fun rule => encodeEmbedded 11 rule.encode := by
  rw [← encodeList_eq_flatMap]
  rfl

/-- The step of a pattern that is no message sets it. -/
theorem HttpRule.reads_simple (budget : Nat) (hs : simple.depths = [])
    (hlen : simple.encode.length < 2 ^ 64) :
    Reads (mergeWithin budget) simple.encode fun start =>
      some { start with pattern := some simple } := by
  cases simple with
  | custom inner => cases hs
  | get path | put path | post path | delete path | patch path =>
    have hreads := reads_encodeEmbedded (mergeWithin budget) _ (HttpPattern.isTag_tag _) hlen
    intro start rest
    rw [HttpPattern.encode, encodeText, hreads]
    simp [mergeWithin, merge, Record.text?, HttpPattern.tag]

/-- The step of the body sets it. -/
theorem HttpRule.reads_body (body : String) (budget : Nat)
    (hlen : (encodeNonempty 7 body).length < 2 ^ 64) :
    Reads (mergeWithin budget) (encodeNonempty 7 body) fun start =>
      some (if body = "" then start else { start with body }) :=
  reads_encodeNonempty (mergeWithin budget) 7 body (fun body start => { start with body })
    (by decide) hlen (fun _ _ => rfl)

/-- An empty body is there before it is read. -/
theorem HttpRule.ite_body (pattern : Option HttpPattern) :
    (if body = "" then ({ pattern } : HttpRule) else { pattern, body }) = { pattern, body } := by
  split
  · next hempty => rw [hempty]
  · rfl

/-- The step of the rules that a rule brings with it adds them. -/
theorem HttpRule.reads_additional (additional : List HttpRule) (budget : Nat)
    (hlen : (additional.flatMap fun rule => encodeEmbedded 11 rule.encode).length < 2 ^ 64)
    (h : ∀ inner ∈ additional, inner.encode.length < 2 ^ 64 →
      DecodesTo (decodeInto? {}) inner.encode inner inner.depth) :
    Reads (mergeWithin budget) (additional.flatMap fun rule => encodeEmbedded 11 rule.encode)
      fun start =>
        if levels (additional.map depth) ≤ budget then
          some { start with additional := start.additional ++ additional }
        else none := by
  have hlengths : ∀ inner ∈ additional, inner.encode.length < 2 ^ 64 :=
    length_lt_of_embedded 11 hlen
  exact reads_embedded (mergeWithin budget) 11
    (fun additional start => { start with additional := start.additional ++ additional })
    (by decide) hlengths (fun inner hr => h inner hr (hlengths inner hr))
    ⟨mergeWithin_additional budget, by rintro ⟨⟩; simp, by simp⟩

/-- A custom pattern is set when the budget covers its one level. -/
theorem HttpRule.merge_custom (body : String) (budget : Nat)
    (hlen : (encodeEmbedded 8 inner.encode).length < 2 ^ 64) :
    mergeWithin budget { body } ⟨8, .delimited inner.encode⟩ =
      if 0 < budget then some { pattern := some (.custom inner), body } else none := by
  have hle := length_le_encodeEmbedded 8 inner.encode
  have hinner : DecodesTo (CustomPattern.decodeInto? {}) inner.encode inner 0 :=
    decodesTo_zero fun _ => CustomPattern.decodeInto?_encode (Nat.lt_of_le_of_lt hle hlen)
  show Option.map _ (Record.embedded? budget (CustomPattern.decodeInto? {}) _) = _
  rw [hinner.embedded?_eq]
  split <;> rfl

/-- **Rules bring rules**: a rule decodes within its depth when those that it brings with it do. -/
theorem HttpRule.decodesTo {rule : HttpRule} (hlen : rule.encode.length < 2 ^ 64) :
    DecodesTo (decodeInto? {}) rule.encode rule rule.depth := by
  induction rule using HttpRule.induction with
  | step rule ih =>
    obtain ⟨pattern, body, additional⟩ := rule
    intro budget
    rw [decodeInto?_eq]
    cases pattern with
    | none =>
      rw [encode_none, List.length_append] at hlen
      have hall := (reads_body body budget (by omega)).append
        (reads_additional additional budget (by omega) ih)
      rw [encode_none, hall.readInto_eq]
      simp [ite_body, depth, depths_eq_map]
    | some simple =>
      by_cases hs : simple.depths = []
      · rw [encode_simple hs, List.length_append, List.length_append] at hlen
        have hall := (reads_simple budget hs (by omega)).append
          (reads_body body budget (by omega))
          |>.append (reads_additional additional budget (by omega) ih)
        rw [encode_simple hs, hall.readInto_eq]
        simp [ite_body, depth, depths_eq_map, hs]
      · cases simple with
        | custom inner =>
          rw [encode_custom, List.length_append, List.length_append] at hlen
          have hshort : (encodeEmbedded 8 inner.encode).length < 2 ^ 64 := by omega
          have hcustom := reads_encodeEmbedded (mergeWithin budget) 8 (by decide) hshort
          have hsingle := merge_custom body budget hshort
          have hall := (reads_body body budget (by omega)).append hcustom
            |>.append (reads_additional additional budget (by omega) ih)
          rw [encode_custom, hall.readInto_eq]
          simp only [Option.bind_some, ite_body, hsingle, bind_ite, List.nil_append]
          simp only [depth, depths_eq_map, HttpPattern.depths, Option.toList_some,
            List.flatMap_cons, List.flatMap_nil, List.append_nil, List.cons_append,
            List.nil_append, levels_cons, Nat.zero_add, Nat.max_le, Nat.succ_le_iff, ite_and]
        | get path | put path | post path | delete path | patch path => exact absurd rfl hs

end Rules

theorem MethodOptions.decodesTo {options : MethodOptions}
    (hlen : options.encode.length < 2 ^ 64) :
    DecodesTo (decodeInto? {}) options.encode options options.depth := by
  intro budget
  have hhttp := reads_encodeOption_embedded (merge budget) httpTag HttpRule.encode options.http
    (by decide) hlen
  have hsingle := elim_embedded (merge budget) httpTag options.http
    (fun http start => { start with http }) {}
    (fun http hmem => HttpRule.decodesTo (length_lt_of_embedded_option hlen http hmem))
    (fun _ => rfl) rfl
  rw [decodeInto?, encode, hhttp.readInto_eq, hsingle]
  rfl

theorem MethodDescriptor.decodesTo {method : MethodDescriptor}
    (hlen : method.encode.length < 2 ^ 64) :
    DecodesTo decode? method.encode method method.depth := by
  intro budget
  simp only [encode, List.length_append] at hlen
  have hname := reads_text (merge budget) 1 method.name
    (fun name start => { start with name := name.or start.name })
    (by decide) (by omega) ⟨fun _ _ => rfl, fun _ => rfl⟩
  have hinput := reads_text (merge budget) 2 method.input
    (fun input start => { start with input := input.or start.input })
    (by decide) (by omega) ⟨fun _ _ => rfl, fun _ => rfl⟩
  have houtput := reads_text (merge budget) 3 method.output
    (fun output start => { start with output := output.or start.output })
    (by decide) (by omega) ⟨fun _ _ => rfl, fun _ => rfl⟩
  have hlenOptions :
      (encodeOption (fun options => encodeEmbedded 4 options.encode) method.options).length <
        2 ^ 64 := by omega
  have hoptions := reads_encodeOption_embedded (merge budget) 4 MethodOptions.encode
    method.options (by decide) hlenOptions
  have hclient := reads_flag (merge budget) 5 method.clientStreaming
    (fun flag start => { start with clientStreaming := flag.or start.clientStreaming })
    (by decide) ⟨fun _ _ => rfl, fun _ => rfl⟩
  have hserver := reads_flag (merge budget) 6 method.serverStreaming
    (fun flag start => { start with serverStreaming := flag.or start.serverStreaming })
    (by decide) ⟨fun _ _ => rfl, fun _ => rfl⟩
  have hall := hname.append hinput |>.append houtput |>.append hoptions |>.append hclient
    |>.append hserver
  have hsingle := elim_embedded (merge budget) 4 method.options
    (fun options start => { start with options })
    { name := method.name, input := method.input, output := method.output }
    (fun options hmem => MethodOptions.decodesTo
      (length_lt_of_embedded_option hlenOptions options hmem))
    (fun _ => rfl) rfl
  rw [decode?, encode, hall.readInto_eq]
  simp only [depth, bind_ite, Option.bind_some, Option.or_none, hsingle]
  rfl

theorem ServiceDescriptor.decodesTo {service : ServiceDescriptor}
    (hlen : service.encode.length < 2 ^ 64) :
    DecodesTo decode? service.encode service service.depth := by
  intro budget
  simp only [encode, List.length_append] at hlen
  have hlengths : ∀ method ∈ service.methods, method.encode.length < 2 ^ 64 :=
    length_lt_of_embedded 2 (by omega)
  have hname := reads_text (merge budget) 1 service.name
    (fun name start => { start with name := name.or start.name })
    (by decide) (by omega) ⟨fun _ _ => rfl, fun _ => rfl⟩
  have hmethods := reads_embedded (merge budget) 2
    (fun methods start => { start with methods := start.methods ++ methods }) (by decide)
    hlengths (fun method hm => MethodDescriptor.decodesTo (hlengths method hm))
    ⟨fun _ _ => rfl, fun _ => by rw [List.append_nil], by simp⟩
  rw [decode?, encode, (hname.append hmethods).readInto_eq]
  simp only [depth, Option.bind_some, Option.or_none, List.nil_append]
  rfl

/-! ### Files and requests -/

/-- **A file decodes within its depth.** -/
theorem FileDescriptor.decodesTo {file : FileDescriptor} (hlen : file.encode.length < 2 ^ 64)
    (hn : ∀ n ∈ file.numbers, IsInt32 n) : DecodesTo decode? file.encode file file.depth := by
  intro budget
  simp only [encode, List.length_append] at hlen
  simp only [numbers, List.mem_append, List.mem_flatMap, or_imp, forall_and,
    forall_exists_index, and_imp] at hn
  obtain ⟨hmessageNumbers, henumNumbers⟩ := hn
  have hdependencyLengths : ∀ name ∈ file.dependencies, (utf8 name).length < 2 ^ 64 := by
    have hshort : (file.dependencies.flatMap fun name => encodeEmbedded 3 (utf8 name)).length <
        2 ^ 64 := by
      show (file.dependencies.flatMap (encodeText 3)).length < 2 ^ 64
      omega
    exact length_lt_of_embedded 3 hshort
  have hmessageLengths : ∀ message ∈ file.messages, message.encode.length < 2 ^ 64 :=
    length_lt_of_embedded 4 (by omega)
  have henumLengths : ∀ enum ∈ file.enums, enum.encode.length < 2 ^ 64 :=
    length_lt_of_embedded 5 (by omega)
  have hserviceLengths : ∀ service ∈ file.services, service.encode.length < 2 ^ 64 :=
    length_lt_of_embedded 6 (by omega)
  have hname := reads_text (merge budget) 1 file.name
    (fun name start => { start with name := name.or start.name })
    (by decide) (by omega) ⟨fun _ _ => rfl, fun _ => rfl⟩
  have hpackage := reads_text (merge budget) 2 file.package
    (fun package start => { start with package := package.or start.package })
    (by decide) (by omega) ⟨fun _ _ => rfl, fun _ => rfl⟩
  have hdependencies := reads_texts (merge budget) 3 file.dependencies
    (fun names start => { start with dependencies := start.dependencies ++ names })
    (by decide) hdependencyLengths ⟨fun _ _ => rfl, fun _ => by rw [List.append_nil], by simp⟩
  have hmessages := reads_embedded (merge budget) 4
    (fun messages start => { start with messages := start.messages ++ messages }) (by decide)
    hmessageLengths (fun message hm => MessageDescriptor.decodesTo
      (hmessageLengths message hm) (hmessageNumbers · message hm))
    ⟨fun _ _ => rfl, fun _ => by rw [List.append_nil], by simp⟩
  have henums := reads_embedded (merge budget) 5
    (fun enums start => { start with enums := start.enums ++ enums }) (by decide)
    henumLengths
    (fun enum he => EnumDescriptor.decodesTo (henumLengths enum he) (henumNumbers · enum he))
    ⟨fun _ _ => rfl, fun _ => by rw [List.append_nil], by simp⟩
  have hservices := reads_embedded (merge budget) 6
    (fun services start => { start with services := start.services ++ services }) (by decide)
    hserviceLengths (fun service hs => ServiceDescriptor.decodesTo (hserviceLengths service hs))
    ⟨fun _ _ => rfl, fun _ => by rw [List.append_nil], by simp⟩
  have hall := hname.append hpackage |>.append hdependencies |>.append hmessages
    |>.append henums |>.append hservices
  rw [decode?, encode, hall.readInto_eq]
  simp only [depth, levels_append, Nat.max_le, ite_and, bind_ite, Option.bind_some,
    Option.or_none, List.nil_append]

/-- **A request decodes to itself up to the depth limit**, and does not decode beyond it. -/
theorem GeneratorRequest.decode?_encode_eq {request : GeneratorRequest}
    (hn : ∀ n ∈ request.numbers, IsInt32 n) (hlen : ∀ length ∈ request.lengths, length < 2 ^ 64) :
    decode? request.encode = if request.depth ≤ 100 then some request else none := by
  simp only [numbers, List.mem_flatMap, forall_exists_index, and_imp] at hn
  simp only [lengths, List.mem_append, List.mem_map, Option.mem_toList, or_imp, forall_and,
    forall_exists_index, and_imp, forall_apply_eq_imp_iff₂] at hlen
  obtain ⟨⟨hrequestedLengths, hparameterLengths⟩, hfileLengths⟩ := hlen
  have hrequested := reads_texts (merge depthLimit) 1 request.requested
    (fun names start => { start with requested := start.requested ++ names })
    (by decide) hrequestedLengths ⟨fun _ _ => rfl, fun _ => by rw [List.append_nil], by simp⟩
  have hrecord : ∀ text ∈ request.parameter,
      IsRecord 2 (encodeText 2 text) Record.text? (some text) :=
    fun text htext => isRecord_encodeText (by decide) (hparameterLengths text htext)
  have hput : Sets (merge depthLimit) 2 Record.text? fun parameter start =>
      { start with parameter := parameter.or start.parameter } :=
    ⟨fun _ _ => rfl, fun _ => rfl⟩
  have hparameter := hput.reads hrecord
  have hfiles := reads_embedded (merge depthLimit) 15
    (fun files start => { start with files := start.files ++ files }) (by decide)
    hfileLengths (fun file hf => FileDescriptor.decodesTo (hfileLengths file hf) (hn · file hf))
    ⟨fun _ _ => rfl, fun _ => by rw [List.append_nil], by simp⟩
  have hall := hrequested.append hparameter |>.append hfiles
  rw [decode?, encode, hall.readInto_eq]
  simp only [depth, Option.bind_some, Option.or_none, List.nil_append]
  rfl

namespace Sample

/-- A request with parts that are absent and parts that are empty, the least number of 32 bits, and
a custom pattern beside a rule that is brought along. -/
def descriptors : GeneratorRequest where
  requested := ["shop/item.proto"]
  parameter := some ""
  files := [{
    name := some "shop/item.proto"
    package := some "shop"
    messages := [{
      name := some "Item"
      fields := [{ name := some "price", number := some 1, type := some (-2147483648) }]
      nested := [{ enums := [{ values := [{ number := some (-1) }] }] }]
      options := some {} }]
    services := [{
      methods := [{
        options := some {
          http := some {
            pattern := some (.custom { kind := "HEAD" })
            additional := [{ pattern := some (.get "/v1/items"), body := "*" }] } } }] }] }]

/-- A message that holds a message, and so on, this many times. -/
def nest : Nat → MessageDescriptor
  | 0 => {}
  | count + 1 => { nested := [nest count] }

end Sample

/-- The sample decodes to itself; a chain of a file and a hundred messages does not decode. -/
theorem GeneratorRequest.decode?_encode_descriptors :
    decode? Sample.descriptors.encode = some Sample.descriptors ∧
      decode? (encode { files := [{ messages := [Sample.nest 99] }] }) = none := by
  constructor
  · rw [decode?_encode_eq (by decide) (by decide +kernel), if_pos (by decide)]
  · rw [decode?_encode_eq (by decide +kernel) (by decide +kernel), if_neg (by decide +kernel)]

end ProtoClient
