import ProtoClient.Proofs.Wire.Varint
import ProtoClient.Wire.Record

/-!
# Records among other bytes

A record says itself where it ends, so the bytes after it do not change what is read. The records of
two encoded messages one after the other are those of the first and then those of the second.

## Main results

* `Record.read_append`: what follows a record does not change it
* `records?_append`: the records of bytes come before those of the bytes after them
-/

namespace ProtoClient

variable {bytes rest more : List UInt8}

theorem takeBytes_append_self (front rest : List UInt8) :
    takeBytes front.length (front ++ rest) = some (front, rest) := by
  simp [takeBytes]

theorem takeBytes_eq_some_iff {count : Nat} {front : List UInt8} :
    takeBytes count bytes = some (front, rest) ↔ bytes = front ++ rest ∧ front.length = count := by
  constructor
  · intro h
    simp only [takeBytes, List.splitAt_eq] at h
    split at h
    · next hlength =>
      cases h
      exact ⟨(List.take_append_drop count bytes).symm, hlength⟩
    · cases h
  · rintro ⟨rfl, rfl⟩
    exact takeBytes_append_self front rest

theorem takeBytes_append {count : Nat} {front : List UInt8}
    (h : takeBytes count bytes = some (front, rest)) (more : List UInt8) :
    takeBytes count (bytes ++ more) = some (front, rest ++ more) := by
  obtain ⟨rfl, rfl⟩ := takeBytes_eq_some_iff.mp h
  rw [List.append_assoc]
  exact takeBytes_append_self front (rest ++ more)

theorem WireForm.ofNumber?_eq_some_iff {n : Nat} {form : WireForm} :
    ofNumber? n = some form ↔ n = form.number := by
  constructor
  · intro h
    unfold ofNumber? at h
    split at h <;> cases h <;> rfl
  · rintro rfl
    cases form <;> rfl

theorem WireForm.number_lt (form : WireForm) : form.number < 8 := by
  cases form <;> decide

/-- A key is read where its number is. -/
theorem readKey_of_read {tag : Nat} {form : WireForm} (hpos : 0 < tag)
    (hfits : 8 * tag + form.number < 2 ^ 32)
    (hread : Varint.read bytes = some (8 * tag + form.number, rest)) :
    readKey bytes = some ((tag, form), rest) := by
  have hform := form.number_lt
  have hdiv : (8 * tag + form.number) / 8 = tag := by omega
  have hmod : (8 * tag + form.number) % 8 = form.number := by omega
  rw [readKey, hread]
  simp only [hdiv, hmod, WireForm.ofNumber?_eq_some_iff.mpr rfl]
  rw [if_pos (by omega)]
  rfl

theorem readKey_append {key : Nat × WireForm} (h : readKey bytes = some (key, rest))
    (more : List UInt8) : readKey (bytes ++ more) = some (key, rest ++ more) := by
  unfold readKey at h ⊢
  split at h
  · next hread =>
    rw [Varint.read_append hread]
    split at h
    · next hkey =>
      obtain ⟨form, hform, heq⟩ := Option.map_eq_some_iff.mp h
      cases heq
      simp only [if_pos hkey, hform]
      rfl
    · cases h
  · cases h

theorem readPayload_append {form : WireForm} {payload : Payload}
    (h : readPayload form bytes = some (payload, rest)) (more : List UInt8) :
    readPayload form (bytes ++ more) = some (payload, rest ++ more) := by
  cases form with
  | varint =>
    obtain ⟨⟨value, after⟩, hread, heq⟩ := Option.map_eq_some_iff.mp h
    cases heq
    rw [readPayload, Varint.read_append hread]
    rfl
  | delimited =>
    obtain ⟨⟨count, after⟩, hread, hinner⟩ := Option.bind_eq_some_iff.mp h
    obtain ⟨⟨front, after'⟩, htake, heq⟩ := Option.map_eq_some_iff.mp hinner
    cases heq
    rw [readPayload, Varint.read_append hread]
    show Option.map _ (takeBytes count (after ++ more)) = _
    rw [takeBytes_append htake]
    rfl
  | fixed64 | fixed32 =>
    obtain ⟨⟨front, after⟩, htake, heq⟩ := Option.map_eq_some_iff.mp h
    cases heq
    rw [readPayload, takeBytes_append htake]
    rfl
  | startGroup | endGroup => cases h

/-- The inside of a group by its first key. -/
theorem skipGroup_of_readKey {opened : List Nat} {height tag : Nat} {form : WireForm} :
    readKey bytes = some ((tag, form), rest) → skipGroup opened height bytes =
      match form with
      | .endGroup =>
        match opened with
        | [] => none
        | innermost :: outer =>
          if tag = innermost then
            if outer = [] then some (height, rest) else skipGroup outer height rest
          else none
      | .startGroup => skipGroup (tag :: opened) (max height (opened.length + 1)) rest
      | form =>
        (readPayload form rest).bind fun (_, rest) =>
          skipGroup opened (max height (opened.length + 1)) rest := by
  intro h
  rw [skipGroup]
  split
  · next hnone => cases h.symm.trans hnone
  · next hsome =>
    cases h.symm.trans hsome
    cases form with
    | endGroup | startGroup => rfl
    | varint | fixed64 | delimited | fixed32 =>
      dsimp only
      split
      · next hpayload => rw [hpayload]; rfl
      · next hpayload => rw [hpayload]; rfl

/-- What follows a group does not change where it ends. -/
theorem skipGroup_append {opened : List Nat} {height height' : Nat}
    (h : skipGroup opened height bytes = some (height', rest)) (more : List UInt8) :
    skipGroup opened height (bytes ++ more) = some (height', rest ++ more) := by
  fun_induction skipGroup opened height bytes with
  | case1 | case2 | case5 | case7 => cases h
  | case3 =>
    rename_i hkey _
    cases h
    rw [skipGroup_of_readKey (readKey_append hkey more)]
    simp only [if_true]
  | case4 =>
    rename_i houter _ hkey _ ih
    rw [skipGroup_of_readKey (readKey_append hkey more)]
    simp only [if_true, if_neg houter]
    exact ih h
  | case6 =>
    rename_i hkey _ ih
    rw [skipGroup_of_readKey (readKey_append hkey more)]
    exact ih h
  | case8 =>
    rename_i form _ _ _ _ _ hpayload _ hkey _ ih
    rw [skipGroup_of_readKey (readKey_append hkey more)]
    cases form with
    | startGroup | endGroup => cases hpayload
    | varint | fixed64 | delimited | fixed32 =>
      dsimp only
      rw [readPayload_append hpayload]
      exact ih h

/-- A record by its key. -/
theorem Record.read_of_readKey {tag : Nat} {form : WireForm} :
    readKey bytes = some ((tag, form), rest) → Record.read bytes =
      match form with
      | .startGroup =>
        (skipGroup [tag] 1 rest).map fun (height, rest) => (⟨tag, .group height⟩, rest)
      | form => (readPayload form rest).map fun (payload, rest) => (⟨tag, payload⟩, rest) := by
  intro h
  unfold Record.read
  cases form <;> simp only [h]

/-- **What follows a record does not change it.** -/
theorem Record.read_append {record : Record} (h : Record.read bytes = some (record, rest))
    (more : List UInt8) : Record.read (bytes ++ more) = some (record, rest ++ more) := by
  cases hkey : readKey bytes with
  | none =>
    rw [Record.read, hkey] at h
    cases h
  | some key =>
    obtain ⟨⟨tag, form⟩, after⟩ := key
    rw [read_of_readKey hkey] at h
    rw [read_of_readKey (readKey_append hkey more)]
    cases form with
    | startGroup =>
      obtain ⟨⟨height, after'⟩, hskip, heq⟩ := Option.map_eq_some_iff.mp h
      cases heq
      dsimp only
      rw [skipGroup_append hskip]
      rfl
    | endGroup | varint | fixed64 | delimited | fixed32 =>
      obtain ⟨⟨payload, after'⟩, hpayload, heq⟩ := Option.map_eq_some_iff.mp h
      cases heq
      dsimp only
      rw [readPayload_append hpayload]
      rfl

/-- **The records of bytes come before those of the bytes after them.** -/
theorem records?_append {records : List Record} (h : records? bytes = some records)
    (more : List UInt8) : records? (bytes ++ more) = (records? more).map (records ++ ·) := by
  fun_induction records? bytes generalizing records with
  | case1 =>
    cases h
    simp
  | case2 => cases h
  | case3 =>
    rename_i hread _ ih
    obtain ⟨later, hlater, rfl⟩ := Option.map_eq_some_iff.mp h
    rw [records?_of_read (Record.read_append hread more), ih hlater, Option.map_map]
    rfl

/-- Bytes that are one record. -/
theorem records?_of_read_eq {record : Record} (h : Record.read bytes = some (record, [])) :
    records? bytes = some [record] := by
  rw [records?_of_read h, records?_nil]
  rfl

end ProtoClient
