import ProtoClient.Json.Basic
import ProtoClient.Text.Quoted

/-!
# Printing JSON

The text of a JSON value over several lines: members and items stand on lines of their own, two
spaces deeper than what they are in, and an empty array or object stays on one line. Characters
beyond ASCII are written raw; of the controls, five have short escapes.

## Main definitions

* `Json.pretty json`: the text of a value
-/

namespace ProtoClient.Json

open Text

/-- Four hexadecimal digits, zeros in front. -/
def fourDigits (n : Nat) : List Char :=
  let digits := hexadecimal n
  List.replicate (4 - digits.length) '0' ++ digits

/-- The escape of a character within a string, or the character itself. -/
def escapeChar (c : Char) : List Char :=
  if c = '"' then ['\\', '"']
  else if c = '\\' then ['\\', '\\']
  else if c = '\n' then ['\\', 'n']
  else if c = '\r' then ['\\', 'r']
  else if c = '\t' then ['\\', 't']
  else if c = '\x08' then ['\\', 'b']
  else if c = '\x0c' then ['\\', 'f']
  else if c.toNat < 0x20 then '\\' :: 'u' :: fourDigits c.toNat
  else [c]

/-- A string between its quotes. -/
def printString (s : String) : String :=
  String.ofList ('"' :: s.toList.flatMap escapeChar ++ ['"'])

/-- A number by its digits, with a point where it has places behind one. -/
def printNumber (digits : Int) (places : Nat) : String :=
  if places = 0 then toString digits
  else
    let ds := (toString digits.natAbs).toList
    let padded := List.replicate (places + 1 - ds.length) '0' ++ ds
    let front := padded.take (padded.length - places)
    let back := padded.drop (padded.length - places)
    (if digits < 0 then "-" else "") ++ String.ofList (front ++ '.' :: back)

/-- The line break in front of what stands at a depth. -/
def indent (depth : Nat) : String :=
  String.ofList ('\n' :: List.replicate (2 * depth) ' ')

mutual

/-- The text of a value that stands at a depth. -/
def prettyAt (depth : Nat) : Json → String
  | .null => "null"
  | .bool value => if value then "true" else "false"
  | .number digits places => printNumber digits places
  | .string text => printString text
  | .array [] => "[]"
  | .array (item :: items) =>
    "[" ++ ",".intercalate (prettyItems (depth + 1) (item :: items)) ++ indent depth ++ "]"
  | .object [] => "\x7b\x7d"
  | .object (field :: fields) =>
    "\x7b" ++ ",".intercalate (prettyFields (depth + 1) (field :: fields)) ++ indent depth ++
      "\x7d"

/-- The items of an array, each on its line. -/
def prettyItems (depth : Nat) : List Json → List String
  | [] => []
  | item :: items => (indent depth ++ prettyAt depth item) :: prettyItems depth items

/-- The members of an object, each on its line. -/
def prettyFields (depth : Nat) : List (String × Json) → List String
  | [] => []
  | (key, value) :: fields =>
    (indent depth ++ printString key ++ ": " ++ prettyAt depth value) :: prettyFields depth fields

end

/-- **The text of a value** over several lines. -/
def pretty (json : Json) : String :=
  prettyAt 0 json

end ProtoClient.Json
