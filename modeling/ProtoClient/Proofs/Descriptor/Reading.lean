import ProtoClient.Descriptor.Encoding
import ProtoClient.Proofs.Wire.Record

/-!
# Reading the parts of descriptors

A value takes in bytes record by record, so the bytes of a part act on the value as a step of their
own, whatever follows them, and the steps of parts that stand one after the other come one after
the other. The step of a part sets it, or adds to it, when the budget covers what is embedded in
it, and fails otherwise.

## Main definitions

* `Reads`: bytes that act on a value as a step
* `IsRecord`: bytes that are one record, from which a value is read
* `DecodesTo`: bytes that decode to a value exactly when the budget covers its depth
* `levels`: how many levels embedded messages take up
* `Sets`, `Adds`: records of a tag that set a part of a value, or add to it

## Main results

* `Reads.append`: the steps of bytes one after the other
* `readInto_append`: a value takes in whole records, and then what follows them
* `Sets.reads`, `Adds.reads`: the steps of a part that may be absent, and of a part that is a list
* `reads_embedded`: the step of a part that is a list of messages
-/

namespace ProtoClient

open Text

variable {α β : Type} {merge : α → Record → Option α} {bytes front back : List UInt8} {tag : Nat}

/-! ### Steps -/

/-- **Bytes act as a step**: they are whole records, and take a value to what `step` makes of it,
whatever follows them. -/
def Reads (merge : α → Record → Option α) (bytes : List UInt8) (step : α → Option α) : Prop :=
  ∀ start rest, readInto merge start (bytes ++ rest) =
    (step start).bind fun next => readInto merge next rest

theorem Reads.readInto_eq {step : α → Option α} (h : Reads merge bytes step) (start : α) :
    readInto merge start bytes = step start := by
  have hall := h start []
  simpa using hall

theorem reads_nil : Reads merge [] some := fun _ _ => rfl

/-- **The steps of bytes one after the other** come one after the other. -/
theorem Reads.append {step step' : α → Option α} (h : Reads merge front step)
    (h' : Reads merge back step') :
    Reads merge (front ++ back) fun start => (step start).bind step' := by
  intro start rest
  rw [List.append_assoc, h start, Option.bind_assoc]
  exact congrArg _ (funext fun next => h' next rest)

/-- **The step of the records that bytes are.** -/
theorem reads_of_records? {records : List Record} (h : records? bytes = some records) :
    Reads merge bytes fun start => records.foldlM merge start := by
  intro start rest
  rw [readInto, records?_append h]
  cases hrest : records? rest with
  | none => simp [readInto, hrest]
  | some more => simp [readInto, hrest, List.foldlM_append]

/-- A value takes in whole records, and then the bytes after them. -/
theorem readInto_append (h : (records? front).isSome) (start : α) (back : List UInt8) :
    readInto merge start (front ++ back) =
      (readInto merge start front).bind fun next => readInto merge next back := by
  obtain ⟨records, hrecords⟩ := Option.isSome_iff_exists.mp h
  have hreads : Reads merge front fun start => records.foldlM merge start :=
    reads_of_records? hrecords
  rw [hreads start back, hreads.readInto_eq]

/-- The step of a single record. -/
theorem reads_of_record {record : Record} (h : records? bytes = some [record]) :
    Reads merge bytes fun start => merge start record := by
  intro start rest
  rw [reads_of_records? h]
  simp

/-- Only whole records are taken in. -/
theorem isSome_records?_of_readInto {start next : α} (h : readInto merge start bytes = some next) :
    (records? bytes).isSome := by
  obtain ⟨records, hrecords, -⟩ := Option.bind_eq_some_iff.mp h
  simp [hrecords]

/-! ### Records of parts -/

/-- A tag that fits a key: not zero, and of at most 29 bits. -/
def IsTag (tag : Nat) : Prop :=
  0 < tag ∧ tag < 2 ^ 29

instance (tag : Nat) : Decidable (IsTag tag) :=
  inferInstanceAs (Decidable (_ ∧ _))

/-- A number of 32 bits with its sign. -/
def IsInt32 (n : Int) : Prop :=
  -2 ^ 31 ≤ n ∧ n < 2 ^ 31

instance (n : Int) : Decidable (IsInt32 n) :=
  inferInstanceAs (Decidable (_ ∧ _))

theorem readKey_encodeKey (ht : IsTag tag) (form : WireForm) (rest : List UInt8) :
    readKey (encodeKey tag form ++ rest) = some ((tag, form), rest) := by
  obtain ⟨hpos, hsmall⟩ := ht
  have hform := form.number_lt
  exact readKey_of_read hpos (by omega) (Varint.read_write (by omega) rest)

theorem records?_encodeEmbedded (ht : IsTag tag) (hlen : bytes.length < 2 ^ 64) :
    records? (encodeEmbedded tag bytes) = some [⟨tag, .delimited bytes⟩] := by
  apply records?_of_read_eq
  have hkey := readKey_encodeKey ht .delimited (Varint.write bytes.length ++ bytes)
  have htake := takeBytes_append_self bytes []
  rw [List.append_nil] at htake
  rw [encodeEmbedded, List.append_assoc, Record.read_of_readKey hkey]
  simp only [readPayload, Varint.read_write hlen, Option.bind_some, htake]
  rfl

theorem records?_encodeNatural {n : Nat} (ht : IsTag tag) (hn : n < 2 ^ 64) :
    records? (encodeNatural tag n) = some [⟨tag, .varint n⟩] := by
  apply records?_of_read_eq
  have hkey := readKey_encodeKey ht .varint (Varint.write n)
  have hread := Varint.read_write hn []
  rw [List.append_nil] at hread
  rw [encodeNatural, Record.read_of_readKey hkey]
  simp only [readPayload, hread]
  rfl

/-- **Bytes are one record** of a tag, and `read` takes `value?` from it. -/
def IsRecord (tag : Nat) (bytes : List UInt8) (read : Record → Option β) (value? : Option β) :
    Prop :=
  ∃ payload, records? bytes = some [⟨tag, payload⟩] ∧ read ⟨tag, payload⟩ = value?

theorem isRecord_encodeText {text : String} (ht : IsTag tag)
    (hlen : (utf8 text).length < 2 ^ 64) :
    IsRecord tag (encodeText tag text) Record.text? (some text) :=
  ⟨.delimited (utf8 text), records?_encodeEmbedded ht hlen, ofUtf8?_utf8 text⟩

theorem isRecord_encodeFlag (ht : IsTag tag) (flag : Bool) :
    IsRecord tag (encodeFlag tag flag) Record.flag? (some flag) := by
  have hsmall : flag.toNat < 2 ^ 64 := by cases flag <;> decide
  refine ⟨.varint flag.toNat, records?_encodeNatural ht hsmall, ?_⟩
  cases flag <;> rfl

/-- The lowest 32 bits of a number that is kept in 64 bits are the number, with its sign. -/
theorem isRecord_encodeInt32 {n : Int} (ht : IsTag tag) (hn : IsInt32 n) :
    IsRecord tag (encodeInt32 tag n) Record.int32? (some n) := by
  obtain ⟨hlow, hhigh⟩ := hn
  have hsmall : (n % 0x10000000000000000).toNat < 2 ^ 64 := by omega
  refine ⟨.varint _, records?_encodeNatural ht hsmall, ?_⟩
  have hcast : ((n % 0x10000000000000000).toNat : Int) = n % 0x10000000000000000 := by omega
  simp only [Record.int32?, hcast, Option.some.injEq]
  rw [Int.bmod_def]
  split <;> omega

/-- **Bytes decode to a value within its depth**: exactly when the budget covers the levels of
what is embedded in the value. -/
def DecodesTo (decode : Nat → List UInt8 → Option β) (bytes : List UInt8) (value : β)
    (depth : Nat) : Prop :=
  ∀ budget, decode budget bytes = if depth ≤ budget then some value else none

/-- An embedded message takes one level, and the levels of what is embedded in it. -/
theorem DecodesTo.embedded?_eq {decode : Nat → List UInt8 → Option β} {value : β} {depth : Nat}
    (h : DecodesTo decode bytes value depth) (tag budget : Nat) :
    Record.embedded? budget decode ⟨tag, .delimited bytes⟩ =
      if depth < budget then some value else none := by
  cases budget with
  | zero => simp [Record.embedded?]
  | succ budget => simp only [Record.embedded?, h budget, Nat.lt_succ_iff]

theorem isRecord_encodeEmbedded {decode : Nat → List UInt8 → Option β} {value : β} {depth : Nat}
    (ht : IsTag tag) (hlen : bytes.length < 2 ^ 64) (h : DecodesTo decode bytes value depth)
    (budget : Nat) :
    IsRecord tag (encodeEmbedded tag bytes) (Record.embedded? budget decode)
      (if depth < budget then some value else none) :=
  ⟨.delimited bytes, records?_encodeEmbedded ht hlen, h.embedded?_eq tag budget⟩

/-! ### Levels -/

/-- **How many levels embedded messages of these depths take up**: one more than the greatest of
them, and none without any. -/
def levels (depths : List Nat) : Nat :=
  depths.foldr (fun depth most => max (depth + 1) most) 0

@[simp] theorem levels_nil : levels [] = 0 := rfl

@[simp] theorem levels_cons (depth : Nat) (depths : List Nat) :
    levels (depth :: depths) = max (depth + 1) (levels depths) := rfl

theorem levels_le_iff {depths : List Nat} {budget : Nat} :
    levels depths ≤ budget ↔ ∀ depth ∈ depths, depth < budget := by
  induction depths with
  | nil => simp
  | cons depth rest ih => simp only [levels_cons, Nat.max_le, List.forall_mem_cons, ih,
      Nat.succ_le_iff]

@[simp] theorem levels_append (depths more : List Nat) :
    levels (depths ++ more) = max (levels depths) (levels more) := by
  induction depths with
  | nil => simp
  | cons depth rest ih => simp only [List.cons_append, levels_cons, ih, Nat.max_assoc]

/-- **Reading an embedded message within the budget of the message around it**: without budget
there is none. -/
def below (read : Nat → List UInt8 → Option α) : Nat → List UInt8 → Option α
  | 0 => fun _ => none
  | budget + 1 => read budget

/-- An embedded message is read within the budget of the message around it. -/
theorem Record.bind_below (read : Nat → List UInt8 → Option α) (budget : Nat) (record : Record) :
    record.bytes?.bind (below read budget) = record.embedded? budget read := by
  unfold bytes? embedded?
  cases record.payload <;> cases budget <;> rfl

/-- A message that takes in a record, and within the same budget the messages nested in it. -/
def MessageDescriptor.mergeWithin (budget : Nat) :
    MessageDescriptor → Record → Option MessageDescriptor :=
  MessageDescriptor.merge budget (below decode? budget)

theorem MessageDescriptor.decode?_eq (budget : Nat) :
    decode? budget = readInto (mergeWithin budget) {} := by
  cases budget <;> rfl

theorem MessageDescriptor.mergeWithin_nested (budget : Nat) (message : MessageDescriptor)
    (payload : Payload) :
    mergeWithin budget message ⟨3, payload⟩ =
      (Record.embedded? budget decode? ⟨3, payload⟩).map fun nested =>
        { message with nested := message.nested ++ [nested] } := by
  rw [← Record.bind_below]
  rfl

/-- A rule that takes in a record, and within the same budget the rules that it brings with it. -/
def HttpRule.mergeWithin (budget : Nat) : HttpRule → Record → Option HttpRule :=
  HttpRule.merge budget (below (decodeInto? {}) budget)

theorem HttpRule.decodeInto?_eq (start : HttpRule) (budget : Nat) :
    start.decodeInto? budget = readInto (mergeWithin budget) start := by
  cases budget <;> rfl

theorem HttpRule.mergeWithin_additional (budget : Nat) (rule : HttpRule) (payload : Payload) :
    mergeWithin budget rule ⟨11, payload⟩ =
      (Record.embedded? budget (decodeInto? {}) ⟨11, payload⟩).map fun additional =>
        { rule with additional := rule.additional ++ [additional] } := by
  rw [← Record.bind_below]
  rfl

/-! ### Lengths -/

theorem length_le_encodeEmbedded (tag : Nat) (bytes : List UInt8) :
    bytes.length ≤ (encodeEmbedded tag bytes).length := by
  rw [encodeEmbedded, List.length_append]
  omega

/-- The messages of a list are no longer than their records. -/
theorem length_lt_of_embedded (tag : Nat) {encode : β → List UInt8} {values : List β}
    {bound : Nat}
    (h : (values.flatMap fun value => encodeEmbedded tag (encode value)).length < bound) :
    ∀ value ∈ values, (encode value).length < bound := by
  intro value hv
  obtain ⟨before, after, rfl⟩ := List.append_of_mem hv
  have hle := length_le_encodeEmbedded tag (encode value)
  rw [List.flatMap_append, List.flatMap_cons, List.length_append, List.length_append] at h
  omega

/-- A message that may be absent is no longer than its record. -/
theorem length_lt_of_embedded_option {encode : β → List UInt8} {part : Option β} {bound : Nat}
    (h : (encodeOption (fun value => encodeEmbedded tag (encode value)) part).length < bound) :
    ∀ value ∈ part, (encode value).length < bound := by
  rintro value rfl
  exact Nat.lt_of_le_of_lt (length_le_encodeEmbedded tag (encode value)) h

/-! ### Steps of parts -/

/-- **Records of a tag set a part**: `put` sets it to what `read` takes from a record, and changes
nothing where there is nothing to set. -/
structure Sets (merge : α → Record → Option α) (tag : Nat) (read : Record → Option β)
    (put : Option β → α → α) : Prop where
  record : ∀ start payload, merge start ⟨tag, payload⟩ =
    (read ⟨tag, payload⟩).map fun value => put (some value) start
  absent : ∀ start, put none start = start

/-- **Records of a tag add to a part**: `put` adds what `read` takes from them, one value after the
other. -/
structure Adds (merge : α → Record → Option α) (tag : Nat) (read : Record → Option β)
    (put : List β → α → α) : Prop where
  record : ∀ start payload, merge start ⟨tag, payload⟩ =
    (read ⟨tag, payload⟩).map fun value => put [value] start
  nil : ∀ start, put [] start = start
  cons : ∀ value rest start, put rest (put [value] start) = put (value :: rest) start

/-- The step of one record. -/
theorem IsRecord.reads {read : Record → Option β} {value? : Option β} {put : β → α → α}
    (h : IsRecord tag bytes read value?)
    (hmerge : ∀ start payload, merge start ⟨tag, payload⟩ =
      (read ⟨tag, payload⟩).map fun value => put value start) :
    Reads merge bytes fun start => value?.map fun value => put value start := by
  obtain ⟨payload, hrecords, hread⟩ := h
  intro start rest
  rw [reads_of_record hrecords]
  simp only [hmerge, hread]

/-- **The step of a part that may be absent** sets it when it is present. -/
theorem Sets.reads {encode : β → List UInt8} {read : Record → Option β}
    {put : Option β → α → α} (h : Sets merge tag read put) {part : Option β}
    (hpart : ∀ value ∈ part, IsRecord tag (encode value) read (some value)) :
    Reads merge (encodeOption encode part) fun start => some (put part start) := by
  cases part with
  | none =>
    simp only [h.absent]
    exact reads_nil
  | some value => exact (hpart value rfl).reads h.record

theorem bind_ite {p : Prop} [Decidable p] (value? : Option α) (f : α → Option β) :
    (if p then value? else none).bind f = if p then value?.bind f else none := by
  split <;> rfl

/-- **The step of a part that is a list** adds it when every one of its values is read. -/
theorem Adds.reads {encode : β → List UInt8} {read : Record → Option β} {put : List β → α → α}
    (h : Adds merge tag read put) {fits : β → Prop} [DecidablePred fits] {values : List β}
    (hvalues : ∀ value ∈ values, IsRecord tag (encode value) read
      (if fits value then some value else none)) :
    Reads merge (values.flatMap encode) fun start =>
      if ∀ value ∈ values, fits value then some (put values start) else none := by
  induction values with
  | nil =>
    simp only [h.nil, List.not_mem_nil, false_implies, implies_true, if_true]
    exact reads_nil
  | cons value rest ih =>
    rw [List.forall_mem_cons] at hvalues
    have hreads := (hvalues.1.reads h.record).append (ih hvalues.2)
    intro start more
    rw [List.flatMap_cons, hreads start more]
    by_cases hfits : fits value
    · simp [hfits, h.cons]
    · simp [hfits]

section Parts

variable (merge) (tag)

/-! ### Steps of texts, numbers and truth values -/

theorem reads_text (part : Option String) (put : Option String → α → α) (ht : IsTag tag)
    (hlen : (encodeOption (encodeText tag) part).length < 2 ^ 64)
    (hput : Sets merge tag Record.text? put) :
    Reads merge (encodeOption (encodeText tag) part) fun start => some (put part start) := by
  apply hput.reads
  rintro text rfl
  have hle := length_le_encodeEmbedded tag (utf8 text)
  exact isRecord_encodeText ht (Nat.lt_of_le_of_lt hle hlen)

theorem reads_int32 (part : Option Int) (put : Option Int → α → α) (ht : IsTag tag)
    (hn : ∀ n ∈ part, IsInt32 n) (hput : Sets merge tag Record.int32? put) :
    Reads merge (encodeOption (encodeInt32 tag) part) fun start => some (put part start) :=
  hput.reads fun n h => isRecord_encodeInt32 ht (hn n h)

theorem reads_flag (part : Option Bool) (put : Option Bool → α → α) (ht : IsTag tag)
    (hput : Sets merge tag Record.flag? put) :
    Reads merge (encodeOption (encodeFlag tag) part) fun start => some (put part start) :=
  hput.reads fun flag _ => isRecord_encodeFlag ht flag

/-- The step of a text that is left out when it is empty. -/
theorem reads_encodeNonempty (text : String) (put : String → α → α) (ht : IsTag tag)
    (hlen : (encodeNonempty tag text).length < 2 ^ 64)
    (hmerge : ∀ start payload, merge start ⟨tag, payload⟩ =
      (Record.text? ⟨tag, payload⟩).map fun text => put text start) :
    Reads merge (encodeNonempty tag text) fun start =>
      some (if text = "" then start else put text start) := by
  unfold encodeNonempty at hlen ⊢
  split
  · exact reads_nil
  · next hne =>
    rw [if_neg hne] at hlen
    have hle := length_le_encodeEmbedded tag (utf8 text)
    exact (isRecord_encodeText ht (Nat.lt_of_le_of_lt hle hlen)).reads hmerge

/-- The step of a part that is a list of texts adds them. -/
theorem reads_texts (texts : List String) (put : List String → α → α) (ht : IsTag tag)
    (hlen : ∀ text ∈ texts, (utf8 text).length < 2 ^ 64)
    (hput : Adds merge tag Record.text? put) :
    Reads merge (texts.flatMap (encodeText tag)) fun start => some (put texts start) := by
  have hrecord : ∀ text ∈ texts, IsRecord tag (encodeText tag text) Record.text?
      (if True then some text else none) := by
    intro text hmem
    rw [if_pos trivial]
    exact isRecord_encodeText ht (hlen text hmem)
  have hreads := hput.reads hrecord
  simpa using hreads

/-! ### Steps of embedded messages -/

/-- **The step of a part that is a list of messages** adds them when the budget covers their
levels. -/
theorem reads_embedded {encode : β → List UInt8} {decode : Nat → List UInt8 → Option β}
    {depth : β → Nat} {values : List β} {budget : Nat} (put : List β → α → α) (ht : IsTag tag)
    (hlen : ∀ value ∈ values, (encode value).length < 2 ^ 64)
    (h : ∀ value ∈ values, DecodesTo decode (encode value) value (depth value))
    (hput : Adds merge tag (Record.embedded? budget decode) put) :
    Reads merge (values.flatMap fun value => encodeEmbedded tag (encode value)) fun start =>
      if levels (values.map depth) ≤ budget then some (put values start) else none := by
  have hrecord : ∀ value ∈ values,
      IsRecord tag (encodeEmbedded tag (encode value)) (Record.embedded? budget decode)
        (if depth value < budget then some value else none) :=
    fun value hv => isRecord_encodeEmbedded ht (hlen value hv) (h value hv) budget
  have hreads := hput.reads hrecord
  simpa only [levels_le_iff, List.forall_mem_map] using hreads

/-- The step of a single message is that of its record: what it leads to depends on the message that
is there before. -/
theorem reads_encodeEmbedded (ht : IsTag tag) (hlen : (encodeEmbedded tag bytes).length < 2 ^ 64) :
    Reads merge (encodeEmbedded tag bytes) fun start => merge start ⟨tag, .delimited bytes⟩ := by
  have hle := length_le_encodeEmbedded tag bytes
  exact reads_of_record (records?_encodeEmbedded ht (Nat.lt_of_le_of_lt hle hlen))

theorem reads_encodeOption_embedded (encode : β → List UInt8) (part : Option β) (ht : IsTag tag)
    (hlen : (encodeOption (fun value => encodeEmbedded tag (encode value)) part).length < 2 ^ 64) :
    Reads merge (encodeOption (fun value => encodeEmbedded tag (encode value)) part) fun start =>
      part.elim (some start) fun value => merge start ⟨tag, .delimited (encode value)⟩ := by
  cases part with
  | none => exact reads_nil
  | some value => exact reads_encodeEmbedded merge tag ht hlen

/-- **The step of a single message**, where there is none before, sets it when the budget covers its
levels. -/
theorem elim_embedded {decode : Nat → List UInt8 → Option β} {encode : β → List UInt8}
    {depth : β → Nat} {budget : Nat} (part : Option β) (put : Option β → α → α) (start : α)
    (h : ∀ value ∈ part, DecodesTo decode (encode value) value (depth value))
    (hmerge : ∀ payload, merge start ⟨tag, payload⟩ =
      (Record.embedded? budget decode ⟨tag, payload⟩).map fun value => put (some value) start)
    (hnone : put none start = start) :
    (part.elim (some start) fun value => merge start ⟨tag, .delimited (encode value)⟩) =
      if levels (part.toList.map depth) ≤ budget then some (put part start) else none := by
  cases part with
  | none => simp [hnone]
  | some value =>
    simp only [Option.elim_some, hmerge, (h value rfl).embedded?_eq, levels_le_iff,
      Option.toList_some, List.map_cons, List.map_nil, List.forall_mem_singleton]
    split <;> rfl

end Parts

end ProtoClient
