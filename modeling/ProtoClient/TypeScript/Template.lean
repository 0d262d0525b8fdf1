import ProtoClient.Text.Split

/-!
# Template literals

A template literal is a text between backticks with holes in it: a hole is opened by `${` and
closed by the next brace, and the value of the code in it is put there. A backslash in front of a
backslash, a backtick or a dollar takes away what it would mean.

## Main definitions

* `escapeTemplate cs`: a text as it stands in a template literal
* `templateHole code`: a hole
* `TemplatePart`, `readTemplate? cs`: the characters and holes that a template literal has
-/

namespace ProtoClient

/-- **A text as it stands in a template literal**: backslashes, backticks and the openings of holes
are escaped. -/
def escapeTemplate : List Char → List Char
  | [] => []
  | c :: rest =>
    if c = '\\' ∨ c = '`' ∨ (c = '$' ∧ rest.head? = some '\x7b') then
      '\\' :: c :: escapeTemplate rest
    else c :: escapeTemplate rest

/-- A hole of a template literal. -/
def templateHole (code : String) : String :=
  "$\x7b" ++ code ++ "\x7d"

/-- **A part of a template literal**: a character, or a hole with the code in it. -/
inductive TemplatePart
  | char (c : Char)
  | hole (code : List Char)
  deriving DecidableEq, Repr

/-- **The parts of a template literal** that has the given text between its backticks. There are
none when a backtick ends it early, or a hole is not closed. -/
def readTemplate? : List Char → Option (List TemplatePart)
  | [] => some []
  | c :: rest =>
    if c = '`' then none
    else if c = '\\' then
      match rest with
      | d :: after =>
        if d = '\\' ∨ d = '`' ∨ d = '$' then (readTemplate? after).map (.char d :: ·)
        else (readTemplate? (d :: after)).map (.char c :: ·)
      | [] => some [.char c]
    else if c = '$' then
      match rest with
      | d :: after =>
        if d = '\x7b' then
          match closed : after.dropWhile (· ≠ '\x7d') with
          | _ :: behind =>
            have : behind.length < after.length := by
              have := (List.dropWhile_suffix (l := after) (· ≠ '\x7d')).length_le
              rw [closed] at this
              exact Nat.lt_of_succ_le (by simpa using this)
            (readTemplate? behind).map (.hole (after.takeWhile (· ≠ '\x7d')) :: ·)
          | [] => none
        else (readTemplate? (d :: after)).map (.char c :: ·)
      | [] => some [.char c]
    else (readTemplate? rest).map (.char c :: ·)
termination_by cs => cs.length

end ProtoClient
