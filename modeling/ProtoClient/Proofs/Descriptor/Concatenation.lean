import ProtoClient.Proofs.Descriptor.Reading

/-!
# Concatenated descriptors

The bytes of two requests one after the other decode to the merged request: lists follow each
other, and of what is there once the later one counts. The same holds one level down: a message that
is embedded once takes in each of its records, so two records of it act as one with the bytes of
both.

## Main definitions

* `GeneratorRequest.extend`: a request with the parts of another one after its own
* `MergesConcatenated`: two records of an embedded message act as one with the bytes of both

## Main results

* `GeneratorRequest.readInto_extend`: what a request takes in comes after what it has
* `mergesConcatenated`: when an embedded message merges what is concatenated
* `decode?_append_merges`: requests, and all messages that are embedded once
-/

namespace ProtoClient

variable {α β : Type}

/-! ### Requests -/

namespace GeneratorRequest

/-- **A request with the parts of another one after its own.** -/
def extend (request more : GeneratorRequest) : GeneratorRequest where
  requested := request.requested ++ more.requested
  parameter := more.parameter.or request.parameter
  files := request.files ++ more.files

theorem extend_empty (request : GeneratorRequest) : request.extend {} = request := by
  simp [extend]

/-- What one record does to the parts that come after those of a request. -/
theorem merge_extend (request more : GeneratorRequest) (budget : Nat) (record : Record) :
    merge budget (request.extend more) record =
      (merge budget more record).map request.extend := by
  unfold merge
  split
  · simp [extend, Function.comp_def]
  · simp [extend, Function.comp_def]
  · simp [extend, Function.comp_def]
  · unfold Record.skip?
    split <;> rfl

/-- **What a request takes in comes after what it has.** -/
theorem readInto_extend (request more : GeneratorRequest) (budget : Nat) (bytes : List UInt8) :
    readInto (merge budget) (request.extend more) bytes =
      (readInto (merge budget) more bytes).map request.extend := by
  unfold readInto
  cases records? bytes with
  | none => rfl
  | some records =>
    show records.foldlM (merge budget) (request.extend more) =
      (records.foldlM (merge budget) more).map request.extend
    induction records generalizing more with
    | nil => rfl
    | cons record rest ih =>
      rw [List.foldlM_cons, List.foldlM_cons, merge_extend]
      cases merge budget more record with
      | none => rfl
      | some next => exact ih next

theorem decode?_append {front back : List UInt8} {request more : GeneratorRequest}
    (hfront : decode? front = some request) (hback : decode? back = some more) :
    decode? (front ++ back) = some (request.extend more) := by
  have hrecords : (records? front).isSome := isSome_records?_of_readInto hfront
  have hextend := readInto_extend request {} depthLimit back
  rw [extend_empty] at hextend
  rw [decode?] at hfront hback ⊢
  rw [readInto_append hrecords, hfront, Option.bind_some, hextend, hback]
  rfl

end GeneratorRequest

/-! ### Messages that are embedded once -/

/-- **Two records of an embedded message act as one** with the bytes of both, whenever each of the
two decodes by itself. -/
def MergesConcatenated (merge : α → Record → Option α) (tag : Nat)
    (decode : List UInt8 → Option β) : Prop :=
  ∀ front back : List UInt8, (decode front).isSome → (decode back).isSome →
    ∀ first second whole : List UInt8,
      records? first = some [⟨tag, .delimited front⟩] →
      records? second = some [⟨tag, .delimited back⟩] →
      records? whole = some [⟨tag, .delimited (front ++ back)⟩] →
      ∀ start, ∃ next, readInto merge start (first ++ second) = some next ∧
        readInto merge start whole = some next

/-- **Whether a record is taken in does not depend on the value** that takes it in. -/
def TakesAlike (merge : α → Record → Option α) : Prop :=
  ∀ start start' record, (merge start record).isSome → (merge start' record).isSome

/-- Whether bytes are taken in does not depend on the value that takes them in. -/
theorem TakesAlike.isSome_readInto {merge : α → Record → Option α} (h : TakesAlike merge)
    {start start' : α} {bytes : List UInt8} (hstart : (readInto merge start bytes).isSome) :
    (readInto merge start' bytes).isSome := by
  unfold readInto at hstart ⊢
  cases hrecords : records? bytes with
  | none =>
    rw [hrecords] at hstart
    cases hstart
  | some records =>
    rw [hrecords, Option.bind_some] at hstart
    rw [Option.bind_some]
    clear hrecords
    -- after one record the two values may still differ, and the induction goes on from there
    induction records generalizing start start' with
    | nil => rfl
    | cons record rest ih =>
      rw [List.foldlM_cons] at hstart ⊢
      cases hnext : merge start record with
      | none =>
        rw [hnext] at hstart
        cases hstart
      | some next =>
        rw [hnext] at hstart
        obtain ⟨next', hnext'⟩ :=
          Option.isSome_iff_exists.mp (h start start' record (by simp [hnext]))
        rw [hnext']
        exact ih hstart

/-- **When an embedded message merges what is concatenated**: its records are read into the message
that is there before, and whether they are does not depend on it. -/
theorem mergesConcatenated {merge : α → Record → Option α} {mergeInner : β → Record → Option β}
    {tag : Nat} (get : α → β) (put : β → α → α) (empty : β) (halike : TakesAlike mergeInner)
    (hmerge : ∀ start bytes, merge start ⟨tag, .delimited bytes⟩ =
      (readInto mergeInner (get start) bytes).map fun value => put value start)
    (hget : ∀ value start, get (put value start) = value)
    (hput : ∀ value value' start, put value' (put value start) = put value' start) :
    MergesConcatenated merge tag (readInto mergeInner empty) := by
  intro front back hfront hback first second whole hfirst hsecond hwhole start
  obtain ⟨value, hvalue⟩ : ∃ value, readInto mergeInner (get start) front = some value :=
    Option.isSome_iff_exists.mp (halike.isSome_readInto hfront)
  obtain ⟨value', hvalue'⟩ : ∃ value', readInto mergeInner value back = some value' :=
    Option.isSome_iff_exists.mp (halike.isSome_readInto hback)
  have hboth : readInto mergeInner (get start) (front ++ back) = some value' := by
    rw [readInto_append (isSome_records?_of_readInto hvalue), hvalue, Option.bind_some, hvalue']
  refine ⟨put value' start, ?_, ?_⟩
  · rw [readInto_append (by simp [hfirst]), (reads_of_record hfirst).readInto_eq, hmerge, hvalue]
    show readInto merge (put value start) second = some (put value' start)
    rw [(reads_of_record hsecond).readInto_eq, hmerge, hget, hvalue']
    show some (put value' (put value start)) = some (put value' start)
    rw [hput]
  · rw [(reads_of_record hwhole).readInto_eq, hmerge, hboth]
    rfl

theorem Record.isSome_skip? {budget : Nat} {start start' : α} {record : Record}
    (h : (record.skip? budget start).isSome) : (record.skip? budget start').isSome := by
  unfold skip? at h ⊢
  split at h
  · next hheight => simp [hheight]
  · cases h

theorem MessageOptions.takesAlike (budget : Nat) : TakesAlike (merge budget) := by
  intro start start' record h
  unfold merge at h ⊢
  split at h
  · simpa using h
  · exact Record.isSome_skip? h

theorem CustomPattern.takesAlike (budget : Nat) : TakesAlike (merge budget) := by
  intro start start' record h
  unfold merge at h ⊢
  split at h
  · simpa using h
  · simpa using h
  · exact Record.isSome_skip? h

/-- An embedded message is read whenever another way of reading it is that reads no less. -/
theorem Record.isSome_embedded? {decode decode' : Nat → List UInt8 → Option β} {budget : Nat}
    {record : Record}
    (hdecode : ∀ budget bytes, (decode budget bytes).isSome → (decode' budget bytes).isSome)
    (h : (record.embedded? budget decode).isSome) : (record.embedded? budget decode').isSome := by
  unfold embedded? at h ⊢
  split at h
  · exact hdecode _ _ h
  · cases h

theorem HttpRule.takesAlike (budget : Nat) : TakesAlike (mergeWithin budget) := by
  intro start start' record h
  unfold mergeWithin merge at h ⊢
  split at h
  case h_7 =>
    rw [Option.isSome_map] at h ⊢
    exact Record.isSome_embedded?
      (fun budget _ => (CustomPattern.takesAlike budget).isSome_readInto) h
  case h_9 => exact Record.isSome_skip? h
  all_goals
    rw [Option.isSome_map] at h ⊢
    exact h

theorem MethodOptions.takesAlike (budget : Nat) : TakesAlike (merge budget) := by
  intro start start' record h
  unfold merge at h ⊢
  split at h
  · next htag =>
    rw [if_pos htag]
    rw [Option.isSome_map] at h ⊢
    refine Record.isSome_embedded? (fun budget bytes hread => ?_) h
    rw [HttpRule.decodeInto?_eq] at hread ⊢
    exact (HttpRule.takesAlike budget).isSome_readInto hread
  · next htag =>
    rw [if_neg htag]
    exact Record.isSome_skip? h

theorem MessageDescriptor.mergesConcatenated_options (budget : Nat) :
    MergesConcatenated (mergeWithin (budget + 1)) 7 (MessageOptions.decodeInto? {} budget) :=
  mergesConcatenated (fun message => message.options.getD {})
    (fun options message => { message with options := some options }) {}
    (MessageOptions.takesAlike budget) (fun _ _ => rfl) (fun _ _ => rfl) (fun _ _ _ => rfl)

theorem MethodDescriptor.mergesConcatenated_options (budget : Nat) :
    MergesConcatenated (merge (budget + 1)) 4 (MethodOptions.decodeInto? {} budget) :=
  mergesConcatenated (fun method => method.options.getD {})
    (fun options method => { method with options := some options }) {}
    (MethodOptions.takesAlike budget) (fun _ _ => rfl) (fun _ _ => rfl) (fun _ _ _ => rfl)

theorem MethodOptions.mergesConcatenated_http (budget : Nat) :
    MergesConcatenated (merge (budget + 1)) httpTag (HttpRule.decodeInto? {} budget) := by
  rw [HttpRule.decodeInto?_eq]
  refine mergesConcatenated (fun options : MethodOptions => options.http.getD {})
    (fun http options => { options with http := some http }) {}
    (HttpRule.takesAlike budget) (fun start bytes => ?_) (fun _ _ => rfl) (fun _ _ _ => rfl)
  rw [← HttpRule.decodeInto?_eq]
  rfl

theorem HttpRule.mergesConcatenated_custom (budget : Nat) :
    MergesConcatenated (mergeWithin (budget + 1)) 8 (CustomPattern.decodeInto? {} budget) :=
  mergesConcatenated HttpRule.customPattern
    (fun pattern rule => { rule with pattern := some (.custom pattern) }) {}
    (CustomPattern.takesAlike budget) (fun _ _ => rfl) (fun _ _ => rfl) (fun _ _ _ => rfl)

/-- **Concatenation is merging**, of requests and of all messages that are embedded once. -/
theorem decode?_append_merges :
    (∀ front back request more, GeneratorRequest.decode? front = some request →
      GeneratorRequest.decode? back = some more →
      GeneratorRequest.decode? (front ++ back) = some
        { requested := request.requested ++ more.requested
          parameter := more.parameter.or request.parameter
          files := request.files ++ more.files }) ∧
    ∀ budget,
      MergesConcatenated (MessageDescriptor.mergeWithin (budget + 1)) 7
        (MessageOptions.decodeInto? {} budget) ∧
      MergesConcatenated (MethodDescriptor.merge (budget + 1)) 4
        (MethodOptions.decodeInto? {} budget) ∧
      MergesConcatenated (MethodOptions.merge (budget + 1)) httpTag
        (HttpRule.decodeInto? {} budget) ∧
      MergesConcatenated (HttpRule.mergeWithin (budget + 1)) 8
        (CustomPattern.decodeInto? {} budget) := by
  refine ⟨fun front back request more hfront hback => ?_, fun budget => ⟨?_, ?_, ?_, ?_⟩⟩
  · exact GeneratorRequest.decode?_append hfront hback
  · exact MessageDescriptor.mergesConcatenated_options budget
  · exact MethodDescriptor.mergesConcatenated_options budget
  · exact MethodOptions.mergesConcatenated_http budget
  · exact HttpRule.mergesConcatenated_custom budget

/-- Two requests, the second with a group of an unknown tag, and a custom pattern whose verb and
path come in two records. -/
theorem decode?_append_merges_pieces :
    GeneratorRequest.decode? ([0x0a, 1, 97, 0x12, 1, 120] ++ [0x0a, 1, 98, 0x1b, 0x1c]) =
        some { requested := ["a", "b"], parameter := some "x" } ∧
      ∃ rule, readInto (HttpRule.mergeWithin 1) {}
          ([0x42, 3, 0x0a, 1, 107] ++ [0x42, 3, 0x12, 1, 112]) = some rule ∧
        readInto (HttpRule.mergeWithin 1) {} [0x42, 6, 0x0a, 1, 107, 0x12, 1, 112] = some rule := by
  obtain ⟨hrequests, hembedded⟩ := decode?_append_merges
  constructor
  · have hfront : GeneratorRequest.decode? [0x0a, 1, 97, 0x12, 1, 120] =
        some { requested := ["a"], parameter := some "x" } := by cbv
    have hrecords : records? [0x0a, 1, 98, 0x1b, 0x1c] =
        some [⟨1, .delimited [98]⟩, ⟨3, .group 1⟩] := by decide +kernel
    have hback : GeneratorRequest.decode? [0x0a, 1, 98, 0x1b, 0x1c] =
        some { requested := ["b"] } := by
      rw [GeneratorRequest.decode?, readInto, hrecords]
      cbv
    exact hrequests _ _ _ _ hfront hback
  · obtain ⟨-, -, -, hcustom⟩ := hembedded 0
    exact hcustom [0x0a, 1, 107] [0x12, 1, 112] (by cbv) (by cbv) _ _ _
      (by decide +kernel) (by decide +kernel) (by decide +kernel) {}

end ProtoClient
