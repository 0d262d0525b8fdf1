import ProtoClient.Text.Graphic
import ProtoClient.Text.Extending

/-!
# Quoted strings

A string is written between double quotes so that it stays on one line and every character that is
written raw can be seen: quotes and backslashes are escaped, the common controls have short
escapes, and a character without a visible form of its own is written by its code point.

## Main definitions

* `quote s`: the quoted form of a string
* `unquote? cs`: the reading of a quoted string at the front of a text, and what follows it

## Main results

* `quoteChar_of_plain`: visible characters of ASCII other than the quote and the backslash are
  written raw
-/

namespace ProtoClient.Text

/-- A number in lower-case hexadecimal, without leading zeros. -/
def hexadecimal (n : Nat) : List Char :=
  Nat.toDigits 16 n

/-- Whether a character is written by its code point: it has no visible form of its own. -/
def isHidden (c : Char) : Bool :=
  isExtending c || !isGraphic c

/-- The escape of a character, or the character itself. -/
def quoteChar (c : Char) : List Char :=
  if c = '\x00' then ['\\', '0']
  else if c = '\t' then ['\\', 't']
  else if c = '\r' then ['\\', 'r']
  else if c = '\n' then ['\\', 'n']
  else if c = '"' then ['\\', '"']
  else if c = '\\' then ['\\', '\\']
  else if isHidden c then ['\\', 'u', '\x7b'] ++ hexadecimal c.toNat ++ ['\x7d']
  else [c]

/-- The quoted form of a text. -/
def quoteList (cs : List Char) : List Char :=
  '"' :: cs.flatMap quoteChar ++ ['"']

/-- **The quoted form** of a string. -/
def quote (s : String) : String :=
  String.ofList (quoteList s.toList)

/-- The value of a hexadecimal digit. -/
def hexDigit? (c : Char) : Option Nat :=
  if '0' ≤ c ∧ c ≤ '9' then some (c.toNat - '0'.toNat)
  else if 'a' ≤ c ∧ c ≤ 'f' then some (c.toNat - 'a'.toNat + 10)
  else if 'A' ≤ c ∧ c ≤ 'F' then some (c.toNat - 'A'.toNat + 10)
  else none

/-- The value of hexadecimal digits, read from the left on top of `high`. -/
def hexValue? (high : Nat) : List Char → Option Nat
  | [] => some high
  | c :: rest =>
    match hexDigit? c with
    | some digit => hexValue? (16 * high + digit) rest
    | none => none

/-- The character whose code point stands in hexadecimal in front of a closing brace, and what
follows the brace. -/
def readCodePoint? (cs : List Char) : Option (Char × List Char) :=
  let digits := cs.takeWhile (· ≠ '\x7d')
  match cs.dropWhile (· ≠ '\x7d') with
  | _ :: rest =>
    match digits, hexValue? 0 digits with
    | _ :: _, some n => if n.isValidChar then some (Char.ofNat n, rest) else none
    | _, _ => none
  | [] => none

/-- The character of an escape, after its backslash, and what follows it. The digit zero stands
for the null character unless another digit follows. -/
def readEscape? : List Char → Option (Char × List Char)
  | 'n' :: rest => some ('\n', rest)
  | 'r' :: rest => some ('\r', rest)
  | 't' :: rest => some ('\t', rest)
  | '"' :: rest => some ('"', rest)
  | '\\' :: rest => some ('\\', rest)
  | '0' :: rest => if rest.head?.any Char.isDigit then none else some ('\x00', rest)
  | 'u' :: '\x7b' :: rest => readCodePoint? rest
  | _ => none

theorem length_lt_of_readCodePoint? {cs rest : List Char} {c : Char}
    (h : readCodePoint? cs = some (c, rest)) : rest.length < cs.length := by
  have hsuffix := (List.dropWhile_suffix (l := cs) (· ≠ '\x7d')).length_le
  unfold readCodePoint? at h
  grind

theorem length_lt_of_readEscape? {cs rest : List Char} {c : Char}
    (h : readEscape? cs = some (c, rest)) : rest.length < cs.length := by
  unfold readEscape? at h
  split at h
  case h_7 =>
    have := length_lt_of_readCodePoint? h
    simp only [List.length_cons]
    omega
  all_goals grind

/-- The text of a quoted string up to its closing quote, and what follows it. Line ends do not
stand raw in it. -/
def unquoteTail? (cs : List Char) : Option (List Char × List Char) :=
  match cs with
  | [] => none
  | c :: rest =>
    if c = '"' then some ([], rest)
    else if c = '\n' ∨ c = '\r' then none
    else if c = '\\' then
      match read : readEscape? rest with
      | some (d, after) =>
        have := length_lt_of_readEscape? read
        (unquoteTail? after).map fun (text, after) => (d :: text, after)
      | none => none
    else (unquoteTail? rest).map fun (text, after) => (c :: text, after)
termination_by cs.length

/-- **The reading of a quoted string** at the front of a text, and what follows it. -/
def unquote? : List Char → Option (List Char × List Char)
  | '"' :: rest => unquoteTail? rest
  | _ => none

/-- Visible characters of ASCII other than the quote and the backslash are written raw. -/
theorem quoteChar_of_plain {c : Char} (hlow : 0x20 ≤ c.toNat) (hhigh : c.toNat < 0x7f)
    (hquote : c ≠ '"') (hbackslash : c ≠ '\\') : quoteChar c = [c] := by
  have hvisible : isHidden c = false := by
    rw [isHidden, isExtending_eq_false_of_ascii (by omega), isGraphic_of_ascii hlow hhigh]
    rfl
  have hcontrol : ∀ d : Char, d.toNat < 0x20 → c ≠ d := by
    rintro d hlt rfl
    omega
  rw [quoteChar, if_neg (hcontrol _ (by decide)), if_neg (hcontrol _ (by decide)),
    if_neg (hcontrol _ (by decide)), if_neg (hcontrol _ (by decide)), if_neg hquote,
    if_neg hbackslash, hvisible, if_neg Bool.false_ne_true]

end ProtoClient.Text
