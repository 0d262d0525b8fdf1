import ProtoClient.Proofs.Wire.Record

/-!
# The bytes of records

What the bytes of a record are can be said without reading them: a key and a payload, and for a
group the bytes of the records in it between two keys of one tag. A reader finds a record in front
of other bytes exactly when they begin with the bytes of one. Records say themselves where they end,
so bytes begin with one record at most, and are the bytes of one list of records at most.

## Main definitions

* `Varint.Spells`, `SpellsKey`, `Payload.Spells`: the bytes of numbers, keys and payloads
* `Record.Spells record bytes`: the bytes are those of the record
* `Closes`: the bytes that end the groups that are open

## Main results

* `Record.read_eq_some_iff`: a record is read where the bytes begin with its own
* `isSome_records?_iff`: bytes are records when they are the bytes of records in a row
* `Record.Spells.append_inj`, `SplitsInto.unique`: bytes begin with one record at most, and are the
  bytes of one list of records at most
-/

namespace ProtoClient

variable {bytes rest : List UInt8}

/-! ### Numbers -/

namespace Varint

/-- The number that bytes of seven bits each stand for, the lowest bits first. -/
def value : List UInt8 → Nat
  | [] => 0
  | byte :: rest => byte.toNat % 128 + 128 * value rest

/-- The bytes of a number in at most `room` bytes: all but the last have the high bit set, and the
last of all that fit holds one bit alone. -/
def SpellsWithin (room n : Nat) (bytes : List UInt8) : Prop :=
  ∃ front last, bytes = front ++ [last] ∧ (∀ byte ∈ front, 128 ≤ byte.toNat) ∧
    last.toNat < 128 ∧ front.length < room ∧ (front.length + 1 = room → last.toNat < 2) ∧
    value bytes = n

/-- **The bytes of a number**, of which there are ten at most. -/
def Spells (n : Nat) (bytes : List UInt8) : Prop :=
  SpellsWithin 10 n bytes

theorem spellsWithin_singleton {room : Nat} {byte : UInt8} (hlast : byte.toNat < 128)
    (hfits : room = 0 → byte.toNat < 2) : SpellsWithin (room + 1) byte.toNat [byte] := by
  refine ⟨[], byte, rfl, by simp, hlast, by simp, fun h => hfits (by simpa using h.symm), ?_⟩
  simp [value, Nat.mod_eq_of_lt hlast]

theorem SpellsWithin.cons {room high : Nat} {byte : UInt8} (hmore : 128 ≤ byte.toNat)
    (h : SpellsWithin room high bytes) :
    SpellsWithin (room + 1) (byte.toNat - 128 + 128 * high) (byte :: bytes) := by
  obtain ⟨front, last, rfl, hfront, hlast, hlength, hfits, rfl⟩ := h
  refine ⟨byte :: front, last, rfl, List.forall_mem_cons.mpr ⟨hmore, hfront⟩, hlast, ?_, ?_, ?_⟩
  · simpa using hlength
  · intro hroom
    exact hfits (by simpa using hroom)
  · have hbyte := byte.toNat_lt
    simp only [value]
    omega

theorem readWithin_of_spells {room n : Nat} (h : SpellsWithin room n bytes) (rest : List UInt8) :
    readWithin room (bytes ++ rest) = some (n, rest) := by
  obtain ⟨front, last, rfl, hfront, hlast, hlength, hfits, rfl⟩ := h
  -- the induction is on the bytes before the last, each of which takes up room
  induction front generalizing room with
  | nil =>
    obtain ⟨room, rfl⟩ : ∃ below, room = below + 1 := ⟨room - 1, by simp at hlength; omega⟩
    have hroom : ¬(room = 0 ∧ 2 ≤ last.toNat) := by
      rintro ⟨rfl, htwo⟩
      have := hfits rfl
      omega
    simp [readWithin, hlast, hroom, value, Nat.mod_eq_of_lt hlast]
  | cons byte front ih =>
    obtain ⟨room, rfl⟩ : ∃ below, room = below + 1 := ⟨room - 1, by simp at hlength; omega⟩
    rw [List.forall_mem_cons] at hfront
    have hread := ih hfront.2 (by simpa using hlength) (fun h => hfits (by simpa using h))
    have hbyte := byte.toNat_lt
    rw [List.cons_append, List.cons_append, readWithin, if_neg (by omega), hread]
    simp only [Option.map_some, value, Option.some.injEq, Prod.mk.injEq, and_true]
    omega

theorem exists_spells_of_readWithin {room n : Nat} (h : readWithin room bytes = some (n, rest)) :
    ∃ front, bytes = front ++ rest ∧ SpellsWithin room n front := by
  induction room generalizing n bytes with
  | zero => cases h
  | succ room ih =>
    cases bytes with
    | nil => cases h
    | cons byte tail =>
      rw [readWithin] at h
      split at h
      · next hlast =>
        split at h
        · cases h
        · next hfits =>
          cases h
          exact ⟨[byte], rfl, spellsWithin_singleton hlast (by omega)⟩
      · next hmore =>
        obtain ⟨⟨high, after⟩, hhigh, heq⟩ := Option.map_eq_some_iff.mp h
        cases heq
        obtain ⟨front, rfl, hspells⟩ := ih hhigh
        exact ⟨byte :: front, rfl, hspells.cons (by omega)⟩

/-- A number of one byte. -/
theorem spells_singleton {byte : UInt8} (h : byte.toNat < 128) : Spells byte.toNat [byte] :=
  spellsWithin_singleton h (by simp)

/-- A number is read in front of other bytes. -/
theorem Spells.read {n : Nat} (h : Spells n bytes) (rest : List UInt8) :
    read (bytes ++ rest) = some (n, rest) :=
  readWithin_of_spells h rest

/-- Where a number is read, the bytes begin with its own. -/
theorem exists_spells_of_read {n : Nat} (h : read bytes = some (n, rest)) :
    ∃ front, bytes = front ++ rest ∧ Spells n front :=
  exists_spells_of_readWithin h

end Varint

/-! ### Keys and payloads -/

/-- **The bytes of a key**: a tag that is not zero, and a form, together in 32 bits. -/
structure SpellsKey (tag : Nat) (form : WireForm) (bytes : List UInt8) : Prop where
  pos : 0 < tag
  fits : 8 * tag + form.number < 2 ^ 32
  spells : Varint.Spells (8 * tag + form.number) bytes

/-- A key of one byte. -/
theorem spellsKey_singleton {tag : Nat} {form : WireForm} {byte : UInt8} (hpos : 0 < tag)
    (hbyte : byte.toNat = 8 * tag + form.number) (hsmall : byte.toNat < 128) :
    SpellsKey tag form [byte] :=
  ⟨hpos, by omega, hbyte ▸ Varint.spells_singleton hsmall⟩

theorem SpellsKey.readKey {tag : Nat} {form : WireForm} (h : SpellsKey tag form bytes)
    (rest : List UInt8) : readKey (bytes ++ rest) = some ((tag, form), rest) :=
  readKey_of_read h.pos h.fits (h.spells.read rest)

theorem exists_spellsKey_of_readKey {tag : Nat} {form : WireForm}
    (h : readKey bytes = some ((tag, form), rest)) :
    ∃ front, bytes = front ++ rest ∧ SpellsKey tag form front := by
  unfold readKey at h
  split at h
  · next key after hread =>
    split at h
    · next hkey =>
      obtain ⟨other, hother, heq⟩ := Option.map_eq_some_iff.mp h
      cases heq
      rw [WireForm.ofNumber?_eq_some_iff] at hother
      have hwhole : 8 * (key / 8) + form.number = key := by omega
      obtain ⟨front, rfl, hspells⟩ := Varint.exists_spells_of_read hread
      refine ⟨front, rfl, by omega, by omega, ?_⟩
      rw [hwhole]
      exact hspells
    · cases h
  · cases h

/-- **The bytes of a payload** in a form that is no group. -/
inductive Payload.Spells : WireForm → Payload → List UInt8 → Prop
  | varint {n : Nat} {bytes : List UInt8} (h : Varint.Spells n bytes) :
    Spells .varint (.varint n) bytes
  | fixed64 {bytes : List UInt8} (h : bytes.length = 8) : Spells .fixed64 (.fixed64 bytes) bytes
  | delimited {count bytes : List UInt8} (h : Varint.Spells bytes.length count) :
    Spells .delimited (.delimited bytes) (count ++ bytes)
  | fixed32 {bytes : List UInt8} (h : bytes.length = 4) : Spells .fixed32 (.fixed32 bytes) bytes

theorem Payload.Spells.readPayload {form : WireForm} {payload : Payload}
    (h : Payload.Spells form payload bytes) (rest : List UInt8) :
    readPayload form (bytes ++ rest) = some (payload, rest) := by
  cases h with
  | varint h => simp [ProtoClient.readPayload, h.read rest]
  | fixed64 h | fixed32 h =>
    simp [ProtoClient.readPayload, takeBytes_eq_some_iff.mpr ⟨rfl, h⟩]
  | @delimited count bytes h =>
    rw [List.append_assoc, ProtoClient.readPayload, h.read]
    show Option.map _ (takeBytes bytes.length (bytes ++ rest)) = _
    rw [takeBytes_append_self]
    rfl

theorem Payload.Spells.height_eq {form : WireForm} {payload : Payload}
    (h : Payload.Spells form payload bytes) : payload.height = 1 := by
  cases h <;> rfl

theorem exists_spells_of_readPayload {form : WireForm} {payload : Payload}
    (h : readPayload form bytes = some (payload, rest)) :
    ∃ front, bytes = front ++ rest ∧ Payload.Spells form payload front := by
  cases form with
  | varint =>
    obtain ⟨⟨n, after⟩, hread, heq⟩ := Option.map_eq_some_iff.mp h
    cases heq
    obtain ⟨front, rfl, hspells⟩ := Varint.exists_spells_of_read hread
    exact ⟨front, rfl, .varint hspells⟩
  | delimited =>
    obtain ⟨⟨count, after⟩, hread, hinner⟩ := Option.bind_eq_some_iff.mp h
    obtain ⟨⟨taken, after'⟩, htake, heq⟩ := Option.map_eq_some_iff.mp hinner
    cases heq
    obtain ⟨rfl, rfl⟩ := takeBytes_eq_some_iff.mp htake
    obtain ⟨front, rfl, hspells⟩ := Varint.exists_spells_of_read hread
    exact ⟨front ++ taken, (List.append_assoc ..).symm, .delimited hspells⟩
  | fixed64 =>
    obtain ⟨⟨taken, after⟩, htake, heq⟩ := Option.map_eq_some_iff.mp h
    cases heq
    obtain ⟨rfl, hlength⟩ := takeBytes_eq_some_iff.mp htake
    exact ⟨taken, rfl, .fixed64 hlength⟩
  | fixed32 =>
    obtain ⟨⟨taken, after⟩, htake, heq⟩ := Option.map_eq_some_iff.mp h
    cases heq
    obtain ⟨rfl, hlength⟩ := takeBytes_eq_some_iff.mp htake
    exact ⟨taken, rfl, .fixed32 hlength⟩
  | startGroup | endGroup => cases h

/-! ### Records -/

/-- How many levels the highest of some records takes up. -/
def heightOf (records : List Record) : Nat :=
  records.foldr (fun record most => max record.payload.height most) 0

@[simp] theorem heightOf_nil : heightOf [] = 0 := rfl

@[simp] theorem heightOf_cons (record : Record) (records : List Record) :
    heightOf (record :: records) = max record.payload.height (heightOf records) := rfl

/-- **The bytes of a record**: a key and a payload, or the bytes of any records between two keys
that open and close a group of one tag. The members of a group come with their bytes. -/
inductive Record.Spells : Record → List UInt8 → Prop
  | simple {tag : Nat} {form : WireForm} {payload : Payload} {key bytes : List UInt8}
    (hkey : SpellsKey tag form key) (hpayload : Payload.Spells form payload bytes) :
    Spells ⟨tag, payload⟩ (key ++ bytes)
  | group {tag : Nat} {opening closing : List UInt8} {members : List (Record × List UInt8)}
    (hopening : SpellsKey tag .startGroup opening)
    (hmembers : ∀ member ∈ members, Spells member.1 member.2)
    (hclosing : SpellsKey tag .endGroup closing) :
    Spells ⟨tag, .group (heightOf (members.map Prod.fst) + 1)⟩
      (opening ++ (members.flatMap Prod.snd ++ closing))

/-! ### The inside of groups -/

/-- **Inside a group the bytes only add to the height**: their levels come on top of those of the
groups that are open. -/
def AddsHeight (height : Nat) (front : List UInt8) : Prop :=
  ∀ opened before rest, opened ≠ [] → opened.length ≤ before →
    skipGroup opened before (front ++ rest) =
      skipGroup opened (max before (opened.length + height)) rest

/-- Bytes that only add to the height do so one after the other. -/
theorem addsHeight_members {members : List (Record × List UInt8)}
    (h : ∀ member ∈ members, AddsHeight member.1.payload.height member.2) :
    AddsHeight (heightOf (members.map Prod.fst)) (members.flatMap Prod.snd) := by
  induction members with
  | nil =>
    intro opened before rest _ hbefore
    rw [List.flatMap_nil, List.nil_append, List.map_nil, heightOf_nil, Nat.add_zero,
      Nat.max_eq_left hbefore]
  | cons member members ih =>
    intro opened before rest hopened hbefore
    rw [List.forall_mem_cons] at h
    rw [List.flatMap_cons, List.append_assoc, h.1 _ _ _ hopened hbefore,
      ih h.2 _ _ _ hopened (by omega), List.map_cons, heightOf_cons]
    congr 1
    omega

theorem Record.Spells.addsHeight {record : Record} {front : List UInt8} (h : record.Spells front) :
    AddsHeight record.payload.height front := by
  induction h with
  | simple hkey hpayload =>
    intro opened before rest _ _
    rw [List.append_assoc, skipGroup_of_readKey (hkey.readKey _)]
    have htake := hpayload.readPayload rest
    cases hpayload <;> simp only [htake] <;> rfl
  | group hopening _ hclosing ih =>
    intro opened before rest hopened hbefore
    rw [List.append_assoc, List.append_assoc, skipGroup_of_readKey (hopening.readKey _)]
    have hinside := addsHeight_members ih
    rw [hinside _ _ _ (List.cons_ne_nil _ _) (by rw [List.length_cons]; omega),
      skipGroup_of_readKey (hclosing.readKey _)]
    simp only [if_true, if_neg hopened, List.length_cons, Payload.height]
    congr 1
    omega

/-- **The bytes end the groups that are open**, the innermost first, and `highest` is the height
that is found in them, when `height` is the one found before. -/
def Closes : (opened : List Nat) → (height highest : Nat) → List UInt8 → Prop
  | [], height, highest, bytes => highest = height ∧ bytes = []
  | tag :: outer, height, highest, bytes =>
    ∃ (members : List (Record × List UInt8)) (closing more : List UInt8),
      (∀ member ∈ members, member.1.Spells member.2) ∧ SpellsKey tag .endGroup closing ∧
        bytes = members.flatMap Prod.snd ++ (closing ++ more) ∧
        Closes outer (max height (outer.length + 1 + heightOf (members.map Prod.fst))) highest more

namespace Closes

variable {tag height highest : Nat} {outer : List Nat} {front more : List UInt8}

/-- The key that ends the innermost group. -/
theorem closing (hkey : SpellsKey tag .endGroup front) (hheight : outer.length + 1 ≤ height)
    (h : Closes outer height highest more) :
    Closes (tag :: outer) height highest (front ++ more) := by
  refine ⟨[], front, more, by simp, hkey, rfl, ?_⟩
  rw [List.map_nil, heightOf_nil, Nat.add_zero, Nat.max_eq_left hheight]
  exact h

/-- One more member in front of those of the innermost group. -/
theorem member {record : Record} (hrecord : record.Spells front)
    (h : Closes (tag :: outer) (max height (outer.length + 1 + record.payload.height)) highest
      more) :
    Closes (tag :: outer) height highest (front ++ more) := by
  obtain ⟨members, close, more, hmembers, hclose, rfl, hmore⟩ := h
  refine ⟨(record, front) :: members, close, more, ?_, hclose, ?_, ?_⟩
  · exact List.forall_mem_cons.mpr ⟨hrecord, hmembers⟩
  · rw [List.flatMap_cons, List.append_assoc]
  · rw [List.map_cons, heightOf_cons, ← Nat.add_max_add_left, ← Nat.max_assoc]
    exact hmore

/-- The key that opens one more group, which is then a member of the one around it. -/
theorem opening {inner : Nat} (hkey : SpellsKey inner .startGroup front)
    (h : Closes (inner :: tag :: outer) (max height (outer.length + 2)) highest more) :
    Closes (tag :: outer) height highest (front ++ more) := by
  obtain ⟨members, close, after, hmembers, hclose, rfl, hafter⟩ := h
  have hgroup := Record.Spells.group hkey hmembers hclose
  rw [← List.append_assoc _ close, ← List.append_assoc front]
  apply member hgroup
  have hheight : max (max height (outer.length + 2))
      (outer.length + 1 + 1 + heightOf (members.map Prod.fst)) =
      max height (outer.length + 1 + (heightOf (members.map Prod.fst) + 1)) := by omega
  rw [List.length_cons, hheight] at hafter
  exact hafter

end Closes

/-- Where the inside of a group is read to its end, the bytes end all the groups that are open. -/
theorem exists_closes_of_skipGroup {opened : List Nat} {height highest : Nat}
    (h : skipGroup opened height bytes = some (highest, rest)) (hopened : opened ≠ [])
    (hheight : opened.length ≤ height) :
    ∃ front, bytes = front ++ rest ∧ Closes opened height highest front := by
  fun_induction skipGroup opened height bytes with
  | case1 | case2 | case5 | case7 => cases h
  | case3 =>
    rename_i hkey _
    cases h
    obtain ⟨front, rfl, hspells⟩ := exists_spellsKey_of_readKey hkey
    refine ⟨front ++ [], by rw [List.append_nil], ?_⟩
    exact Closes.closing hspells hheight ⟨rfl, rfl⟩
  | case4 =>
    rename_i houter _ hkey _ ih
    have hlength := Nat.le_of_succ_le hheight
    obtain ⟨front, rfl, hspells⟩ := exists_spellsKey_of_readKey hkey
    obtain ⟨more, rfl, hmore⟩ := ih h houter hlength
    exact ⟨front ++ more, (List.append_assoc ..).symm, hmore.closing hspells hheight⟩
  | case6 =>
    rename_i opened _ _ _ _ _ hkey _ ih
    obtain ⟨front, rfl, hspells⟩ := exists_spellsKey_of_readKey hkey
    obtain ⟨more, rfl, hmore⟩ := ih h (List.cons_ne_nil _ _) (Nat.le_max_right ..)
    obtain ⟨tag, outer, rfl⟩ := List.exists_cons_of_ne_nil hopened
    exact ⟨front ++ more, (List.append_assoc ..).symm, hmore.opening hspells⟩
  | case8 =>
    rename_i hpayload _ hkey _ ih
    obtain ⟨front, rfl, hspells⟩ := exists_spellsKey_of_readKey hkey
    obtain ⟨taken, rfl, htaken⟩ := exists_spells_of_readPayload hpayload
    obtain ⟨more, rfl, hmore⟩ := ih h hopened (Nat.le_trans hheight (Nat.le_max_left ..))
    obtain ⟨tag, outer, rfl⟩ := List.exists_cons_of_ne_nil hopened
    rw [← List.append_assoc, ← List.append_assoc]
    refine ⟨front ++ taken ++ more, rfl, Closes.member (.simple hspells htaken) ?_⟩
    rw [htaken.height_eq]
    exact hmore

/-! ### Records read -/

namespace Record

/-- A record is read in front of other bytes. -/
theorem Spells.read {record : Record} (h : record.Spells bytes) (rest : List UInt8) :
    read (bytes ++ rest) = some (record, rest) := by
  cases h with
  | simple hkey hpayload =>
    rw [List.append_assoc, read_of_readKey (hkey.readKey _)]
    have htake := hpayload.readPayload rest
    cases hpayload <;> simp only [htake] <;> rfl
  | @group tag opening closing members hopening hmembers hclosing =>
    have hinside := addsHeight_members fun member hm => (hmembers member hm).addsHeight
    rw [List.append_assoc, List.append_assoc, read_of_readKey (hopening.readKey _)]
    show Option.map _ (skipGroup [tag] 1 _) = _
    rw [hinside [tag] 1 _ (List.cons_ne_nil _ _) (Nat.le_refl _),
      skipGroup_of_readKey (hclosing.readKey _)]
    simp only [if_true, Option.map_some, List.length_singleton]
    rw [Nat.max_eq_right (by omega), Nat.add_comm]

/-- Where a record is read, the bytes begin with its own. -/
theorem exists_spells_of_read {record : Record} (h : read bytes = some (record, rest)) :
    ∃ front, bytes = front ++ rest ∧ record.Spells front := by
  cases hkey : readKey bytes with
  | none =>
    rw [read, hkey] at h
    cases h
  | some key =>
    obtain ⟨⟨tag, form⟩, after⟩ := key
    obtain ⟨front, rfl, hspells⟩ := exists_spellsKey_of_readKey hkey
    rw [read_of_readKey hkey] at h
    cases form with
    | startGroup =>
      obtain ⟨⟨highest, after'⟩, hskip, heq⟩ := Option.map_eq_some_iff.mp h
      cases heq
      obtain ⟨inside, rfl, hcloses⟩ :=
        exists_closes_of_skipGroup hskip (List.cons_ne_nil _ _) (Nat.le_refl _)
      obtain ⟨members, closing, _, hmembers, hclosing, rfl, hhighest, rfl⟩ := hcloses
      have hheight : highest = heightOf (members.map Prod.fst) + 1 := by
        rw [hhighest, List.length_nil]
        omega
      subst hheight
      refine ⟨_, ?_, .group hspells hmembers hclosing⟩
      simp only [List.append_assoc, List.append_nil]
    | endGroup => cases h
    | varint | fixed64 | delimited | fixed32 =>
      obtain ⟨⟨payload, after'⟩, hpayload, heq⟩ := Option.map_eq_some_iff.mp h
      cases heq
      obtain ⟨taken, rfl, htaken⟩ := exists_spells_of_readPayload hpayload
      exact ⟨front ++ taken, (List.append_assoc ..).symm, .simple hspells htaken⟩

/-- **A record is read where the bytes begin with its own.** -/
theorem read_eq_some_iff {record : Record} :
    read bytes = some (record, rest) ↔ ∃ front, bytes = front ++ rest ∧ record.Spells front := by
  constructor
  · exact exists_spells_of_read
  · rintro ⟨front, rfl, h⟩
    exact h.read rest

theorem Spells.ne_nil {record : Record} (h : record.Spells bytes) : bytes ≠ [] := by
  rintro rfl
  exact absurd (length_lt_of_read (h.read [])) (by simp)

/-- **Bytes begin with one record at most.** -/
theorem Spells.append_inj {record record' : Record} {front front' rest rest' : List UInt8}
    (h : record.Spells front) (h' : record'.Spells front') (heq : front ++ rest = front' ++ rest') :
    record = record' ∧ front = front' ∧ rest = rest' := by
  have hread := h.read rest
  rw [heq, h'.read rest'] at hread
  cases hread
  exact ⟨rfl, List.append_cancel_right heq, rfl⟩

end Record

/-! ### Records in a row -/

/-- **The bytes are those of records in a row**, one piece for each. -/
def SplitsInto (bytes : List UInt8) (pieces : List (List UInt8)) : Prop :=
  (∀ piece ∈ pieces, ∃ record : Record, record.Spells piece) ∧ pieces.flatten = bytes

namespace SplitsInto

variable {piece : List UInt8} {pieces pieces' : List (List UInt8)}

theorem nil : SplitsInto [] [] := ⟨by simp, rfl⟩

theorem cons {record : Record} (hpiece : record.Spells piece) (h : SplitsInto bytes pieces) :
    SplitsInto (piece ++ bytes) (piece :: pieces) := by
  obtain ⟨hpieces, rfl⟩ := h
  exact ⟨List.forall_mem_cons.mpr ⟨⟨record, hpiece⟩, hpieces⟩, rfl⟩

theorem of_cons (h : SplitsInto bytes (piece :: pieces)) :
    ∃ (record : Record) (rest : List UInt8),
      record.Spells piece ∧ SplitsInto rest pieces ∧ bytes = piece ++ rest := by
  obtain ⟨hpieces, rfl⟩ := h
  rw [List.forall_mem_cons] at hpieces
  obtain ⟨⟨record, hpiece⟩, hpieces⟩ := hpieces
  exact ⟨record, pieces.flatten, hpiece, ⟨hpieces, rfl⟩, rfl⟩

theorem eq_nil (h : SplitsInto [] pieces) : pieces = [] := by
  cases pieces with
  | nil => rfl
  | cons piece pieces =>
    obtain ⟨record, rest, hpiece, -, hempty⟩ := h.of_cons
    exact absurd (List.append_eq_nil_iff.mp hempty.symm).1 hpiece.ne_nil

/-- **Bytes are those of one list of records at most.** -/
theorem unique (h : SplitsInto bytes pieces) (h' : SplitsInto bytes pieces') :
    pieces = pieces' := by
  induction pieces generalizing bytes pieces' with
  | nil =>
    obtain rfl : [] = bytes := h.2
    exact h'.eq_nil.symm
  | cons piece pieces ih =>
    obtain ⟨record, rest, hpiece, hrest, rfl⟩ := h.of_cons
    cases pieces' with
    | nil =>
      obtain hempty : [] = piece ++ rest := h'.2
      exact absurd (List.append_eq_nil_iff.mp hempty.symm).1 hpiece.ne_nil
    | cons piece' pieces' =>
      obtain ⟨record', rest', hpiece', hrest', heq⟩ := h'.of_cons
      obtain ⟨-, rfl, rfl⟩ := hpiece.append_inj hpiece' heq
      rw [ih hrest hrest']

theorem append {front back : List UInt8} (h : SplitsInto front pieces)
    (h' : SplitsInto back pieces') : SplitsInto (front ++ back) (pieces ++ pieces') := by
  obtain ⟨hpieces, rfl⟩ := h
  obtain ⟨hpieces', rfl⟩ := h'
  exact ⟨List.forall_mem_append.mpr ⟨hpieces, hpieces'⟩, List.flatten_append⟩

theorem of_append (h : SplitsInto bytes (pieces ++ pieces')) :
    SplitsInto pieces.flatten pieces ∧ SplitsInto pieces'.flatten pieces' := by
  obtain ⟨hpieces, -⟩ := h
  rw [List.forall_mem_append] at hpieces
  exact ⟨⟨hpieces.1, rfl⟩, ⟨hpieces.2, rfl⟩⟩

end SplitsInto

/-- **Bytes are records when they are the bytes of records in a row.** -/
theorem isSome_records?_iff : (records? bytes).isSome ↔ ∃ pieces, SplitsInto bytes pieces := by
  constructor
  · intro h
    fun_induction records? bytes with
    | case1 => exact ⟨[], .nil⟩
    | case2 => cases h
    | case3 =>
      rename_i hread _ ih
      obtain ⟨front, heq, hspells⟩ := Record.exists_spells_of_read hread
      obtain ⟨pieces, hpieces⟩ := ih (by simpa using h)
      rw [heq]
      exact ⟨front :: pieces, hpieces.cons hspells⟩
  · rintro ⟨pieces, h⟩
    induction pieces generalizing bytes with
    | nil =>
      obtain rfl : [] = bytes := h.2
      simp
    | cons piece pieces ih =>
      obtain ⟨record, rest, hpiece, hrest, rfl⟩ := h.of_cons
      rw [records?_of_read (hpiece.read rest), Option.isSome_map]
      exact ih hrest

end ProtoClient
