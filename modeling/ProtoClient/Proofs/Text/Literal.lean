import Mathlib.Tactic.SplitIfs
import ProtoClient.Text.Quoted

/-!
# Where a string literal ends

A string literal ends at the first quote that no backslash stands before, so it can be told from
what follows it without knowing what its escapes mean. Every quoted string is such a literal: of
the characters that it consists of, a quote, a backslash or a line end is never left as it is.

## Main definitions

* `IsLiteralBody cs`: what may stand between the quotes of a literal
* `readLiteral? cs`: the literal at the front of a text, as it is written, and what follows it

## Main results

* `isLiteralBody_flatMap_quoteChar`: the quoted form of a string has the body of a literal
* `readLiteral?_quoteList`: a quoted string at the front of a text is read to its end
-/

namespace ProtoClient.Text

/-- **What may stand between the quotes of a literal.** A backslash takes the next character with
it, and other quotes and backslashes and the ends of lines do not occur. -/
inductive IsLiteralBody : List Char → Prop
  | nil : IsLiteralBody []
  | raw {c : Char} {cs : List Char} (hc : c ≠ '"' ∧ c ≠ '\\' ∧ c ≠ '\n' ∧ c ≠ '\r')
    (h : IsLiteralBody cs) : IsLiteralBody (c :: cs)
  | escape {c : Char} {cs : List Char} (hc : c ≠ '\n' ∧ c ≠ '\r') (h : IsLiteralBody cs) :
    IsLiteralBody ('\\' :: c :: cs)

/-- The rest of a literal behind its opening quote, up to its closing quote, and what follows
it. -/
def literalTail? : List Char → Option (List Char × List Char)
  | [] => none
  | '"' :: rest => some ([], rest)
  | ['\\'] => none
  | '\\' :: c :: rest => (literalTail? rest).map fun (body, after) => ('\\' :: c :: body, after)
  | c :: rest => (literalTail? rest).map fun (body, after) => (c :: body, after)

/-- **The literal at the front of a text**, with its quotes, and what follows it. -/
def readLiteral? : List Char → Option (List Char × List Char)
  | '"' :: rest => (literalTail? rest).map fun (body, after) => ('"' :: body ++ ['"'], after)
  | _ => none

/-- Reading to the end of a literal leaves less. -/
theorem length_lt_of_literalTail? {cs body rest : List Char}
    (h : literalTail? cs = some (body, rest)) : rest.length < cs.length := by
  -- the induction follows the reader, which goes on behind an escape or another character
  fun_induction literalTail? cs generalizing body with
  | case1 => cases h
  | case2 => cases h; simp
  | case3 => cases h
  | case4 c cs ih =>
    obtain ⟨⟨body, after⟩, hread, heq⟩ := Option.map_eq_some_iff.mp h
    cases heq
    have := ih hread
    simp only [List.length_cons]
    omega
  | case5 c cs _ _ _ ih =>
    obtain ⟨⟨body, after⟩, hread, heq⟩ := Option.map_eq_some_iff.mp h
    cases heq
    have := ih hread
    simp only [List.length_cons]
    omega

/-- Reading a literal leaves less. -/
theorem length_lt_of_readLiteral? {cs literal rest : List Char}
    (h : readLiteral? cs = some (literal, rest)) : rest.length < cs.length := by
  unfold readLiteral? at h
  split at h
  · obtain ⟨⟨body, after⟩, hread, heq⟩ := Option.map_eq_some_iff.mp h
    cases heq
    exact Nat.lt_succ_of_lt (length_lt_of_literalTail? hread)
  · cases h

namespace IsLiteralBody

/-- The bodies of literals go together. -/
theorem append {front back : List Char} (hf : IsLiteralBody front) (hb : IsLiteralBody back) :
    IsLiteralBody (front ++ back) := by
  induction hf with
  | nil => exact hb
  | raw hc _ ih => exact .raw hc ih
  | escape hc _ ih => exact .escape hc ih

/-- Characters that need no escape are the body of a literal. -/
theorem of_forall {cs : List Char}
    (h : ∀ c ∈ cs, c ≠ '"' ∧ c ≠ '\\' ∧ c ≠ '\n' ∧ c ≠ '\r') : IsLiteralBody cs := by
  induction cs with
  | nil => exact .nil
  | cons c cs ih =>
    obtain ⟨hc, hcs⟩ := List.forall_mem_cons.mp h
    exact .raw hc (ih hcs)

/-- The body of a literal is read up to the quote that follows it. -/
theorem literalTail?_append {body : List Char} (h : IsLiteralBody body) (rest : List Char) :
    literalTail? (body ++ '"' :: rest) = some (body, rest) := by
  induction h with
  | nil => rfl
  | @raw c cs hc _ ih =>
    rw [List.cons_append, literalTail?, ih]
    · rfl
    · exact hc.1
    · rintro rfl
      exact absurd rfl hc.2.1
    · rintro _ _ rfl
      exact absurd rfl hc.2.1
  | escape _ _ ih =>
    rw [List.cons_append, List.cons_append, literalTail?, ih]
    rfl

end IsLiteralBody

/-- The characters of a number are hexadecimal digits. -/
theorem exists_digitChar_of_mem_hexadecimal {n : Nat} {c : Char} (hc : c ∈ hexadecimal n) :
    ∃ d < 16, Nat.digitChar d = c := by
  unfold hexadecimal at hc
  induction n using Nat.strongRecOn with
  | ind n ih =>
    rw [Nat.toDigits_eq_if (by decide)] at hc
    split_ifs at hc with hn
    · exact ⟨n, hn, (List.mem_singleton.mp hc).symm⟩
    · rcases List.mem_append.mp hc with hc | hc
      · exact ih (n / 16) (by omega) hc
      · exact ⟨n % 16, Nat.mod_lt n (by decide), (List.mem_singleton.mp hc).symm⟩

/-- The digits of a number need no escape. -/
theorem forall_mem_hexadecimal (n : Nat) :
    ∀ c ∈ hexadecimal n, c ≠ '"' ∧ c ≠ '\\' ∧ c ≠ '\n' ∧ c ≠ '\r' := by
  have hdigit : ∀ d < 16, Nat.digitChar d ≠ '"' ∧ Nat.digitChar d ≠ '\\' ∧
      Nat.digitChar d ≠ '\n' ∧ Nat.digitChar d ≠ '\r' := by decide
  intro c hc
  obtain ⟨d, hd, rfl⟩ := exists_digitChar_of_mem_hexadecimal hc
  exact hdigit d hd

/-- What is written for a character may stand between the quotes of a literal. -/
theorem isLiteralBody_quoteChar (c : Char) : IsLiteralBody (quoteChar c) := by
  have hescape {d : Char} (hd : d ≠ '\n' ∧ d ≠ '\r') : IsLiteralBody ['\\', d] :=
    .escape hd .nil
  unfold quoteChar
  split_ifs with hnull htab hreturn hfeed hquote hbackslash hhidden
  · exact hescape (by decide)
  · exact hescape (by decide)
  · exact hescape (by decide)
  · exact hescape (by decide)
  · exact hescape (by decide)
  · exact hescape (by decide)
  · have hbrace : IsLiteralBody ['\\', 'u', '\x7b'] :=
      .escape (by decide) (.raw (by decide) .nil)
    exact (hbrace.append (.of_forall (forall_mem_hexadecimal _))).append (.raw (by decide) .nil)
  · exact .raw ⟨hquote, hbackslash, hfeed, hreturn⟩ .nil

/-- **A quoted string has the body of a literal**, whatever it consists of. -/
theorem isLiteralBody_flatMap_quoteChar (cs : List Char) :
    IsLiteralBody (cs.flatMap quoteChar) := by
  induction cs with
  | nil => exact .nil
  | cons c cs ih =>
    rw [List.flatMap_cons]
    exact (isLiteralBody_quoteChar c).append ih

/-- **A quoted string at the front of a text is read to its end.** -/
theorem readLiteral?_quoteList (cs rest : List Char) :
    readLiteral? (quoteList cs ++ rest) = some (quoteList cs, rest) := by
  have htail := (isLiteralBody_flatMap_quoteChar cs).literalTail?_append rest
  rw [quoteList, List.cons_append, List.cons_append, List.append_assoc, readLiteral?,
    List.singleton_append, htail]
  rfl

end ProtoClient.Text
