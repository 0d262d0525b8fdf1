import ProtoClient.Proofs.Descriptor.Reading
import ProtoClient.Proofs.Wire.Grammar

/-!
# Requests that are cut short

The bytes of a request are records in a row, and in one way only. What is left when they are cut
decodes exactly when the cut is between two of these records: a cut inside one, wherever that is,
leaves bytes that are no record, so a request that was not handed over whole is never taken for a
shorter one.

## Main results

* `Record.Spells.records?_take`: no front part of a record is made of records
* `isSome_readInto_iff_of_append`: the front part of what is taken in is taken in when it is made
  of records
* `GeneratorRequest.isSome_decode?_cut_iff`: the cuts at which a request decodes
-/

namespace ProtoClient

variable {α : Type} {merge : α → Record → Option α} {start : α} {front back bytes : List UInt8}

/-- **No front part of a record is made of records.** -/
theorem Record.Spells.records?_take {record : Record} (h : record.Spells bytes) {cut : Nat}
    (hpos : 0 < cut) (hcut : cut < bytes.length) : records? (bytes.take cut) = none := by
  rw [← Option.not_isSome_iff_eq_none]
  intro hsome
  obtain ⟨pieces, hpieces⟩ := isSome_records?_iff.mp hsome
  have hlength : (bytes.take cut).length = cut := List.length_take_of_le (Nat.le_of_lt hcut)
  cases pieces with
  | nil =>
    have hempty := congrArg List.length hpieces.2
    rw [hlength, List.flatten_nil, List.length_nil] at hempty
    omega
  | cons piece pieces =>
    obtain ⟨other, rest, hpiece, -, heq⟩ := hpieces.of_cons
    have hwhole : bytes ++ [] = piece ++ (rest ++ bytes.drop cut) := by
      rw [List.append_nil, ← List.append_assoc, ← heq, List.take_append_drop]
    obtain ⟨-, rfl, -⟩ := h.append_inj hpiece hwhole
    have hle := congrArg List.length heq
    rw [hlength, List.length_append] at hle
    omega

/-- The front part of what is taken in is taken in when it is made of records. -/
theorem isSome_readInto_iff_of_append (h : (readInto merge start (front ++ back)).isSome) :
    (readInto merge start front).isSome ↔ (records? front).isSome := by
  constructor
  · intro hfront
    obtain ⟨next, hnext⟩ := Option.isSome_iff_exists.mp hfront
    exact isSome_records?_of_readInto hnext
  · intro hrecords
    rw [readInto_append hrecords] at h
    cases hnext : readInto merge start front with
    | none =>
      rw [hnext] at h
      cases h
    | some next => rfl

/-- The front part of bytes that are records is made of records when it ends with one of them. -/
theorem SplitsInto.isSome_records?_iff {pieces : List (List UInt8)}
    (h : SplitsInto (front ++ back) pieces) :
    (records? front).isSome ↔ ∃ count, front = (pieces.take count).flatten := by
  constructor
  · intro hfront
    obtain ⟨records, hrecords⟩ := Option.isSome_iff_exists.mp hfront
    have hwhole : (records? (front ++ back)).isSome := ProtoClient.isSome_records?_iff.mpr ⟨_, h⟩
    rw [records?_append hrecords, Option.isSome_map] at hwhole
    obtain ⟨before, hbefore⟩ := ProtoClient.isSome_records?_iff.mp hfront
    obtain ⟨after, hafter⟩ := ProtoClient.isSome_records?_iff.mp hwhole
    obtain rfl := h.unique (hbefore.append hafter)
    refine ⟨before.length, ?_⟩
    rw [List.take_left, hbefore.2]
  · rintro ⟨count, rfl⟩
    rw [← List.take_append_drop count pieces] at h
    exact ProtoClient.isSome_records?_iff.mpr ⟨_, h.of_append.1⟩

namespace GeneratorRequest

/-- **The cuts at which a request decodes.** The bytes of a request are records in a row, in one way
only. A front part of them decodes when it ends with one of these records, and fails to decode when
it ends inside one. -/
theorem isSome_decode?_cut_iff (h : (decode? bytes).isSome) :
    ∃ pieces, SplitsInto bytes pieces ∧ (∀ pieces', SplitsInto bytes pieces' → pieces' = pieces) ∧
      (∀ front, front <+: bytes →
        ((decode? front).isSome ↔ ∃ count, front = (pieces.take count).flatten)) ∧
      ∀ before piece after, pieces = before ++ piece :: after →
        ∀ cut, 0 < cut → cut < piece.length →
          decode? (before.flatten ++ piece.take cut) = none := by
  obtain ⟨request, hrequest⟩ := Option.isSome_iff_exists.mp h
  obtain ⟨pieces, hpieces⟩ :=
    isSome_records?_iff.mp (isSome_records?_of_readInto hrequest)
  refine ⟨pieces, hpieces, fun pieces' h' => h'.unique hpieces, ?_, ?_⟩
  · rintro front ⟨back, rfl⟩
    exact (isSome_readInto_iff_of_append h).trans hpieces.isSome_records?_iff
  · rintro before piece after rfl cut hpos hcut
    obtain ⟨hbefore, hafter⟩ := hpieces.of_append
    obtain ⟨record, -, hpiece, -, -⟩ := hafter.of_cons
    obtain ⟨records, hrecords⟩ :=
      Option.isSome_iff_exists.mp (isSome_records?_iff.mpr ⟨before, hbefore⟩)
    rw [decode?, readInto, records?_append hrecords, hpiece.records?_take hpos hcut]
    rfl

/-- A request of one name and a group of a tag that is not declared: cut between the two it decodes,
and cut inside the group it does not. -/
theorem isSome_decode?_cut_group :
    (decode? [0x0a, 1, 97, 0x1b, 0x1c]).isSome ∧ (decode? [0x0a, 1, 97]).isSome ∧
      decode? [0x0a, 1, 97, 0x1b] = none := by
  have hwhole : (decode? [0x0a, 1, 97, 0x1b, 0x1c]).isSome := by decide +kernel
  have hname : (⟨1, .delimited [97]⟩ : Record).Spells [0x0a, 1, 97] :=
    @Record.Spells.simple 1 .delimited _ [0x0a] [1, 97]
      (spellsKey_singleton (by decide) rfl (by decide))
      (@Payload.Spells.delimited [1] [97] (Varint.spells_singleton (by decide)))
  have hgroup : (⟨3, .group 1⟩ : Record).Spells [0x1b, 0x1c] :=
    @Record.Spells.group 3 [0x1b] [0x1c] [] (spellsKey_singleton (by decide) rfl (by decide))
      (by simp) (spellsKey_singleton (by decide) rfl (by decide))
  have hsplits : SplitsInto [0x0a, 1, 97, 0x1b, 0x1c] [[0x0a, 1, 97], [0x1b, 0x1c]] :=
    .cons hname (.cons hgroup .nil)
  obtain ⟨pieces, -, hunique, hcuts, hinside⟩ := isSome_decode?_cut_iff hwhole
  obtain rfl := hunique _ hsplits
  refine ⟨hwhole, ?_, ?_⟩
  · exact (hcuts [0x0a, 1, 97] ⟨[0x1b, 0x1c], rfl⟩).mpr ⟨1, rfl⟩
  · exact hinside [[0x0a, 1, 97]] [0x1b, 0x1c] [] rfl 1 (by decide) (by decide)

end GeneratorRequest

end ProtoClient
