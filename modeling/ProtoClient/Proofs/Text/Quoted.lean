import Mathlib.Data.List.Chain
import ProtoClient.Proofs.Text.Literal

/-!
# What a quoted string stands for

Reading a quoted string undoes its escapes, so it stands for the string that was quoted. The one
exception is a null character with a digit right behind it, which would be read as an escape of
another kind: a string without that is legible.

## Main definitions

* `IsLegible s`: no null character of the string has a digit right behind it
* `literalText? literal`: the text that a string literal stands for

## Main results

* `unquoteTail?_quoteChar`: what is written for a character is read as the character
* `unquote?_quoteList`: a quoted string at the front of a text is read, and what follows it is left
* `literalText?_quote`: a quoted string stands for the string
-/

namespace ProtoClient.Text

/-- **A legible string**: no null character in it has a digit right behind it. -/
def IsLegible (s : String) : Prop :=
  s.toList.IsChain fun c next => c = '\x00' → next.isDigit = false

instance (s : String) : Decidable (IsLegible s) :=
  inferInstanceAs (Decidable (s.toList.IsChain fun c next => c = '\x00' → next.isDigit = false))

/-- **The text that a string literal stands for**, if nothing follows the literal. -/
def literalText? (literal : String) : Option String :=
  match unquote? literal.toList with
  | some (text, []) => some (String.ofList text)
  | _ => none

/-! ### Hexadecimal digits -/

theorem hexDigit?_digitChar : ∀ d < 16, hexDigit? (Nat.digitChar d) = some d := by
  decide

/-- One more digit at the end is one more digit of the value. -/
theorem hexValue?_concat {high value digit : Nat} {ds : List Char} {d : Char}
    (hds : hexValue? high ds = some value) (hd : hexDigit? d = some digit) :
    hexValue? high (ds ++ [d]) = some (16 * value + digit) := by
  induction ds generalizing high with
  | nil =>
    cases hds
    rw [List.nil_append, hexValue?, hd]
    rfl
  | cons e ds ih =>
    rw [hexValue?] at hds
    rw [List.cons_append, hexValue?]
    split at hds
    · exact ih hds
    · cases hds

/-- The digits of a number have its value. -/
theorem hexValue?_hexadecimal (n : Nat) : hexValue? 0 (hexadecimal n) = some n := by
  unfold hexadecimal
  induction n using Nat.strongRecOn with
  | ind n ih =>
    rw [Nat.toDigits_eq_if (by decide)]
    split
    · next hn =>
      rw [hexValue?, hexDigit?_digitChar n hn]
      simp [hexValue?]
    · have hlast := hexDigit?_digitChar (n % 16) (Nat.mod_lt n (by decide))
      rw [hexValue?_concat (ih (n / 16) (by omega)) hlast, Nat.div_add_mod]

theorem hexadecimal_ne_nil (n : Nat) : hexadecimal n ≠ [] := by
  rw [hexadecimal, Nat.toDigits_eq_if (by decide)]
  split <;> simp

/-- A code point in hexadecimal is read up to its closing brace. -/
theorem readCodePoint?_hexadecimal (c : Char) (rest : List Char) :
    readCodePoint? (hexadecimal c.toNat ++ '\x7d' :: rest) = some (c, rest) := by
  have hdigits : ∀ d ∈ hexadecimal c.toNat, decide (d ≠ '\x7d') = true := by
    have hdigit : ∀ d < 16, decide (Nat.digitChar d ≠ '\x7d') = true := by decide
    intro d hd
    obtain ⟨n, hn, rfl⟩ := exists_digitChar_of_mem_hexadecimal hd
    exact hdigit n hn
  have hfront : (hexadecimal c.toNat ++ '\x7d' :: rest).takeWhile (· ≠ '\x7d') =
      hexadecimal c.toNat := by
    rw [List.takeWhile_append_of_pos hdigits, List.takeWhile_cons_of_neg (by simp),
      List.append_nil]
  have hback : (hexadecimal c.toNat ++ '\x7d' :: rest).dropWhile (· ≠ '\x7d') =
      '\x7d' :: rest := by
    rw [List.dropWhile_append_of_pos hdigits, List.dropWhile_cons_of_neg (by simp)]
  have hvalid : c.toNat.isValidChar := c.valid
  obtain ⟨first, more, hcons⟩ := List.exists_cons_of_ne_nil (hexadecimal_ne_nil c.toNat)
  rw [readCodePoint?, hback, hfront, hexValue?_hexadecimal, hcons]
  simp [hvalid]

/-! ### Characters -/

theorem unquoteTail?_quote (rest : List Char) : unquoteTail? ('"' :: rest) = some ([], rest) := by
  rw [unquoteTail?, if_pos rfl]

/-- A character that is not special is read as it is. -/
theorem unquoteTail?_raw {c : Char} (hc : c ≠ '"' ∧ c ≠ '\\' ∧ c ≠ '\n' ∧ c ≠ '\r')
    (rest : List Char) :
    unquoteTail? (c :: rest) = (unquoteTail? rest).map fun (text, after) => (c :: text, after) := by
  rw [unquoteTail?]
  simp [hc]

/-- An escape is read as the character that it stands for. -/
theorem unquoteTail?_escape {c : Char} (escape : List Char) {rest : List Char}
    (h : readEscape? escape = some (c, rest)) :
    unquoteTail? ('\\' :: escape) =
      (unquoteTail? rest).map fun (text, after) => (c :: text, after) := by
  rw [unquoteTail?, if_neg (by decide), if_neg (by decide), if_pos rfl]
  split
  · next d after hread =>
    cases h.symm.trans hread
    rfl
  · next hread => cases h.symm.trans hread

/-- **What is written for a character is read as the character**, unless it is a null character
and a digit follows. -/
theorem unquoteTail?_quoteChar {c : Char} {rest : List Char}
    (h : c = '\x00' → rest.head?.any Char.isDigit = false) :
    unquoteTail? (quoteChar c ++ rest) =
      (unquoteTail? rest).map fun (text, after) => (c :: text, after) := by
  unfold quoteChar
  split_ifs with hnull htab hreturn hfeed hquote hbackslash hhidden
  · subst hnull
    refine unquoteTail?_escape ('0' :: rest) ?_
    rw [readEscape?, h rfl, if_neg Bool.false_ne_true]
  · exact unquoteTail?_escape ('t' :: rest) (by rw [readEscape?, htab])
  · exact unquoteTail?_escape ('r' :: rest) (by rw [readEscape?, hreturn])
  · exact unquoteTail?_escape ('n' :: rest) (by rw [readEscape?, hfeed])
  · exact unquoteTail?_escape ('"' :: rest) (by rw [readEscape?, hquote])
  · exact unquoteTail?_escape ('\\' :: rest) (by rw [readEscape?, hbackslash])
  · have hcode := readCodePoint?_hexadecimal c rest
    rw [List.append_assoc, List.append_assoc, List.singleton_append]
    exact unquoteTail?_escape
      ('u' :: '\x7b' :: (hexadecimal c.toNat ++ '\x7d' :: rest)) (by rwa [readEscape?])
  · exact unquoteTail?_raw ⟨hquote, hbackslash, hfeed, hreturn⟩ rest

/-- What is written for a character begins with a digit when the character is one. -/
theorem isDigit_head?_quoteChar (c : Char) (rest : List Char) :
    (quoteChar c ++ rest).head?.any Char.isDigit = c.isDigit := by
  cases hdigit : c.isDigit with
  | true =>
    have hrange : 0x30 ≤ c.toNat ∧ c.toNat ≤ 0x39 := by
      simpa [Char.isDigit, UInt32.le_iff_toNat_le] using hdigit
    have hne {d : Char} (hd : 0x39 < d.toNat ∨ d.toNat < 0x30) : c ≠ d := by
      rintro rfl
      omega
    rw [quoteChar_of_plain (by omega) (by omega) (hne (by decide)) (hne (by decide))]
    simpa using hdigit
  | false =>
    unfold quoteChar
    split_ifs <;> simp [hdigit]

/-! ### Strings -/

/-- **A quoted string at the front of a text is read**, and what follows it is left. -/
theorem unquote?_quoteList {cs : List Char}
    (h : cs.IsChain fun c next => c = '\x00' → next.isDigit = false) (rest : List Char) :
    unquote? (quoteList cs ++ rest) = some (cs, rest) := by
  rw [quoteList, List.cons_append, List.cons_append, List.append_assoc, List.singleton_append,
    unquote?]
  induction cs with
  | nil => exact unquoteTail?_quote rest
  | cons c cs ih =>
    rw [List.isChain_cons] at h
    have hnext : c = '\x00' →
        (cs.flatMap quoteChar ++ '"' :: rest).head?.any Char.isDigit = false := by
      intro hc
      cases cs with
      | nil => rfl
      | cons next cs =>
        rw [List.flatMap_cons, List.append_assoc, isDigit_head?_quoteChar]
        exact h.1 next rfl hc
    rw [List.flatMap_cons, List.append_assoc, unquoteTail?_quoteChar hnext, ih h.2]
    rfl

/-- **A legible string is what its quoted form stands for.** -/
theorem literalText?_quote {s : String} (h : IsLegible s) : literalText? (quote s) = some s := by
  have hread := unquote?_quoteList h []
  rw [List.append_nil] at hread
  simp [literalText?, quote, hread]

end ProtoClient.Text
