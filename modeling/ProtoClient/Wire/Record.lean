import ProtoClient.Wire.Varint

/-!
# Records

An encoded message is a sequence of records. A record has a key, which is a tag with the form of
what follows, and a payload in that form. What a group holds is of no use here but has to be read
to its end, so a group is kept as the depth of what is in it.

## Main definitions

* `WireForm`: the forms of payloads
* `Payload`, `Record`: records
* `Record.read bytes`: the record in front, and the bytes after it
* `records? bytes`: the records that the bytes are

## Main results

* `Record.length_lt_of_read`: a record takes at least one byte
* `records?_of_read`: the records of bytes are the one in front and those of the rest
-/

namespace ProtoClient

/-- **The forms of payloads.** -/
inductive WireForm
  | varint
  | fixed64
  | delimited
  | startGroup
  | endGroup
  | fixed32
  deriving DecidableEq, Repr

/-- The number of a form in a key. -/
def WireForm.number : WireForm → Nat
  | .varint => 0
  | .fixed64 => 1
  | .delimited => 2
  | .startGroup => 3
  | .endGroup => 4
  | .fixed32 => 5

/-- The form of a number. -/
def WireForm.ofNumber? : Nat → Option WireForm
  | 0 => some .varint
  | 1 => some .fixed64
  | 2 => some .delimited
  | 3 => some .startGroup
  | 4 => some .endGroup
  | 5 => some .fixed32
  | _ => none

/-- **Payloads.** A group is kept as its height: one for the group itself, and one more than the
highest of what is in it. -/
inductive Payload
  | varint (value : Nat)
  | fixed64 (bytes : List UInt8)
  | delimited (bytes : List UInt8)
  | group (height : Nat)
  | fixed32 (bytes : List UInt8)
  deriving DecidableEq, Repr

/-- How many levels a payload takes up when it is passed over. -/
def Payload.height : Payload → Nat
  | .group height => height
  | _ => 1

/-- **A record**: a tag and a payload. -/
structure Record where
  tag : Nat
  payload : Payload
  deriving DecidableEq, Repr

/-- The first `count` bytes and those after them. -/
def takeBytes (count : Nat) (bytes : List UInt8) : Option (List UInt8 × List UInt8) :=
  let (front, rest) := bytes.splitAt count
  if front.length = count then some (front, rest) else none

/-- The key in front: a tag that is not zero, and a form. A key has 32 bits. -/
def readKey (bytes : List UInt8) : Option ((Nat × WireForm) × List UInt8) :=
  match Varint.read bytes with
  | some (key, rest) =>
    if key < 0x100000000 ∧ key / 8 ≠ 0 then
      (WireForm.ofNumber? (key % 8)).map fun form => ((key / 8, form), rest)
    else none
  | none => none

/-- The payload in front of a form that is no group. -/
def readPayload : WireForm → List UInt8 → Option (Payload × List UInt8)
  | .varint, bytes => (Varint.read bytes).map fun (value, rest) => (.varint value, rest)
  | .fixed64, bytes => (takeBytes 8 bytes).map fun (front, rest) => (.fixed64 front, rest)
  | .delimited, bytes =>
    (Varint.read bytes).bind fun (count, rest) =>
      (takeBytes count rest).map fun (front, rest) => (.delimited front, rest)
  | .startGroup, _ => none
  | .endGroup, _ => none
  | .fixed32, bytes => (takeBytes 4 bytes).map fun (front, rest) => (.fixed32 front, rest)

theorem length_le_of_takeBytes {count : Nat} {bytes front rest : List UInt8}
    (h : takeBytes count bytes = some (front, rest)) : rest.length ≤ bytes.length := by
  simp only [takeBytes, List.splitAt_eq] at h
  split at h
  · cases h
    simp
  · simp at h

theorem length_lt_of_readKey {bytes rest : List UInt8} {key : Nat × WireForm}
    (h : readKey bytes = some (key, rest)) : rest.length < bytes.length := by
  unfold readKey at h
  split at h
  · next hfound =>
    split at h
    · obtain ⟨form, -, heq⟩ := Option.map_eq_some_iff.mp h
      cases heq
      exact Varint.length_lt_of_read hfound
    · simp at h
  · simp at h

theorem length_le_of_readPayload {form : WireForm} {bytes rest : List UInt8} {payload : Payload}
    (h : readPayload form bytes = some (payload, rest)) : rest.length ≤ bytes.length := by
  cases form with
  | varint =>
    obtain ⟨⟨value, after⟩, hfound, heq⟩ := Option.map_eq_some_iff.mp h
    cases heq
    exact Nat.le_of_lt (Varint.length_lt_of_read hfound)
  | delimited =>
    obtain ⟨⟨count, after⟩, hfound, hinner⟩ := Option.bind_eq_some_iff.mp h
    obtain ⟨⟨front, after'⟩, htaken, heq⟩ := Option.map_eq_some_iff.mp hinner
    cases heq
    exact Nat.le_trans (length_le_of_takeBytes htaken)
      (Nat.le_of_lt (Varint.length_lt_of_read hfound))
  | fixed64 | fixed32 =>
    obtain ⟨⟨front, after⟩, htaken, heq⟩ := Option.map_eq_some_iff.mp h
    cases heq
    exact length_le_of_takeBytes htaken
  | startGroup | endGroup => simp [readPayload] at h

/-- The height of a group, and the bytes after it, from the inside of the group on. The tags of
the groups that are open come with it, the innermost first, and the height found so far. Each
group ends at an end with its own tag. -/
def skipGroup (opened : List Nat) (height : Nat) (bytes : List UInt8) :
    Option (Nat × List UInt8) :=
  match key : readKey bytes with
  | none => none
  | some ((tag, form), rest) =>
    have := length_lt_of_readKey key
    match form with
    | .endGroup =>
      match opened with
      | [] => none
      | innermost :: outer =>
        if tag = innermost then
          if outer = [] then some (height, rest) else skipGroup outer height rest
        else none
    | .startGroup => skipGroup (tag :: opened) (max height (opened.length + 1)) rest
    | form =>
      match payload : readPayload form rest with
      | none => none
      | some (_, rest') =>
        have := length_le_of_readPayload payload
        skipGroup opened (max height (opened.length + 1)) rest'
termination_by bytes.length

theorem length_le_of_skipGroup {opened : List Nat} {height height' : Nat}
    {bytes rest : List UInt8} (h : skipGroup opened height bytes = some (height', rest)) :
    rest.length ≤ bytes.length := by
  fun_induction skipGroup opened height bytes with
  | case1 => simp at h
  | case2 => simp at h
  | case3 =>
    cases h
    omega
  | case4 =>
    rename_i ih
    have := ih h
    omega
  | case5 => simp at h
  | case6 =>
    rename_i ih
    have := ih h
    omega
  | case7 => simp at h
  | case8 =>
    rename_i ih
    have := ih h
    omega

/-- **The record in front** and the bytes after it. -/
def Record.read (bytes : List UInt8) : Option (Record × List UInt8) :=
  match readKey bytes with
  | none => none
  | some ((tag, form), rest) =>
    match form with
    | .startGroup =>
      (skipGroup [tag] 1 rest).map fun (height, rest) => (⟨tag, .group height⟩, rest)
    | form => (readPayload form rest).map fun (payload, rest) => (⟨tag, payload⟩, rest)

/-- A record takes at least one byte. -/
theorem Record.length_lt_of_read {bytes rest : List UInt8} {record : Record}
    (h : Record.read bytes = some (record, rest)) : rest.length < bytes.length := by
  unfold Record.read at h
  split at h
  · simp at h
  · next hfound =>
    have := length_lt_of_readKey hfound
    split at h
    · obtain ⟨⟨height, after⟩, hskipped, heq⟩ := Option.map_eq_some_iff.mp h
      cases heq
      have := length_le_of_skipGroup hskipped
      omega
    · obtain ⟨⟨payload, after⟩, htaken, heq⟩ := Option.map_eq_some_iff.mp h
      cases heq
      have := length_le_of_readPayload htaken
      omega

/-- **The records** that the bytes are. -/
def records? (bytes : List UInt8) : Option (List Record) :=
  match bytes with
  | [] => some []
  | byte :: tail =>
    match front : Record.read (byte :: tail) with
    | none => none
    | some (record, rest) =>
      have := Record.length_lt_of_read front
      (records? rest).map (record :: ·)
termination_by bytes.length
decreasing_by assumption

@[simp] theorem records?_nil : records? [] = some [] := by
  rw [records?]

/-- The records of bytes are the one in front and those of the rest. -/
theorem records?_of_read {bytes rest : List UInt8} {record : Record}
    (h : Record.read bytes = some (record, rest)) :
    records? bytes = (records? rest).map (record :: ·) := by
  cases bytes with
  | nil => exact absurd (Record.length_lt_of_read h) (by simp)
  | cons byte tail =>
    rw [records?]
    split
    · next hnone => simp [hnone] at h
    · next hfound =>
      rw [h] at hfound
      cases hfound
      rfl

end ProtoClient
