import Mathlib
import ProtoClient.Wire.Varint

/-!
# Reading variable-length integers back

Numbers of at most 64 bits are read back from the bytes that they are written as, whatever bytes
follow, and bytes that follow what a reader takes do not change what it reads.

## Main results

* `Varint.read_write`: a number of 64 bits is read back
* `Varint.read_append`: what follows a number does not change it
-/

namespace ProtoClient.Varint

theorem toNat_toUInt8 {n : Nat} (h : n < 256) : n.toUInt8.toNat = n := by
  simp [Nat.mod_eq_of_lt h]

/-- A number is read back from enough bytes; the last of ten may hold one bit alone. -/
theorem readWithin_write {room n : Nat} (hn : n < 2 * 128 ^ room) (rest : List UInt8) :
    readWithin (room + 1) (write n ++ rest) = some (n, rest) := by
  -- the induction is on the bytes that fit: all but the last hold seven bits
  induction room generalizing n with
  | zero =>
    have hsmall : n < 128 := by omega
    rw [write, if_pos hsmall, List.singleton_append, readWithin, toNat_toUInt8 (by omega),
      if_pos hsmall, if_neg (by omega)]
  | succ room ih =>
    rw [write]
    split
    · next hsmall =>
      rw [List.singleton_append, readWithin, toNat_toUInt8 (by omega), if_pos hsmall,
        if_neg (by omega)]
    · next hbig =>
      have hhigh : n / 128 < 2 * 128 ^ room := by
        rw [Nat.pow_succ] at hn
        omega
      rw [List.cons_append, readWithin, toNat_toUInt8 (by omega), if_neg (by omega), ih hhigh]
      simp only [Option.map_some, Option.some.injEq, Prod.mk.injEq, and_true]
      omega

/-- **A number of 64 bits is read back.** -/
theorem read_write {n : Nat} (hn : n < 0x10000000000000000) (rest : List UInt8) :
    read (write n ++ rest) = some (n, rest) := by
  have hfits : n < 2 * 128 ^ 9 := by omega
  exact readWithin_write hfits rest

theorem readWithin_append {room n : Nat} {bytes rest : List UInt8}
    (h : readWithin room bytes = some (n, rest)) (more : List UInt8) :
    readWithin room (bytes ++ more) = some (n, rest ++ more) := by
  induction room generalizing n bytes rest with
  | zero => cases h
  | succ room ih =>
    cases bytes with
    | nil => cases h
    | cons byte tail =>
      rw [readWithin] at h
      rw [List.cons_append, readWithin]
      split at h
      · next hlast =>
        rw [if_pos hlast]
        split at h
        · cases h
        · next hfits =>
          cases h
          rw [if_neg hfits]
      · next hmore =>
        obtain ⟨⟨high, after⟩, hhigh, heq⟩ := Option.map_eq_some_iff.mp h
        cases heq
        rw [if_neg hmore, ih hhigh]
        rfl

/-- **What follows a number does not change it.** -/
theorem read_append {n : Nat} {bytes rest : List UInt8} (h : read bytes = some (n, rest))
    (more : List UInt8) : read (bytes ++ more) = some (n, rest ++ more) :=
  readWithin_append h more

end ProtoClient.Varint
