/-!
# Variable-length integers

Natural numbers as bytes of seven bits each, the lowest first; every byte but the last has its
high bit set. A reader takes ten bytes at most and no number of more than 64 bits, but it takes
numbers that are written longer than they need to be.

## Main definitions

* `Varint.write n`: the bytes of a number
* `Varint.read bytes`: the number in front, and the bytes after it

## Main results

* `Varint.length_lt_of_read`: a reader takes at least one byte
-/

namespace ProtoClient.Varint

/-- **The bytes of a number**, as few as it needs. -/
def write (n : Nat) : List UInt8 :=
  if n < 128 then [n.toUInt8] else (n % 128 + 128).toUInt8 :: write (n / 128)
termination_by n
decreasing_by omega

/-- The number in front and the bytes after it, in at most `room` bytes. The last of all bytes that
fit may hold one bit alone. -/
def readWithin : (room : Nat) → List UInt8 → Option (Nat × List UInt8)
  | 0, _ => none
  | _ + 1, [] => none
  | room + 1, byte :: rest =>
    if byte.toNat < 128 then
      if room = 0 ∧ 2 ≤ byte.toNat then none else some (byte.toNat, rest)
    else
      (readWithin room rest).map fun (high, rest) => (byte.toNat - 128 + 128 * high, rest)

/-- **The number in front** and the bytes after it. -/
def read (bytes : List UInt8) : Option (Nat × List UInt8) :=
  readWithin 10 bytes

theorem length_lt_of_readWithin {room n : Nat} {bytes rest : List UInt8}
    (h : readWithin room bytes = some (n, rest)) : rest.length < bytes.length := by
  induction room generalizing n bytes rest with
  | zero => simp [readWithin] at h
  | succ room ih =>
    cases bytes with
    | nil => simp [readWithin] at h
    | cons byte tail =>
      rw [readWithin] at h
      split at h
      · split at h
        · simp at h
        · cases h
          simp
      · obtain ⟨⟨high, after⟩, hfound, heq⟩ := Option.map_eq_some_iff.mp h
        cases heq
        have := ih hfound
        simp only [List.length_cons]
        omega

/-- A reader takes at least one byte. -/
theorem length_lt_of_read {n : Nat} {bytes rest : List UInt8} (h : read bytes = some (n, rest)) :
    rest.length < bytes.length :=
  length_lt_of_readWithin h

end ProtoClient.Varint
