import ProtoClient.Fault
import ProtoClient.Text.Blank
import ProtoClient.Text.Split

/-!
# Path templates

The path of an HTTP rule is a text with parameters in braces, such as `/v1/{name=shelves/*}`:
a field path, and behind `=` the pattern that its value fits. Braces do not nest.

## Main definitions

* `PathTemplate.Piece`: a literal character or a group in braces
* `PathTemplate.scan cs`: the pieces of a text
* `PathTemplate.parameters? path`: the parameters of a template, or what is wrong with it

## Main results

* `PathTemplate.flatMap_text_scan`: the pieces are the text, piece by piece
-/

namespace ProtoClient.PathTemplate

open Text

/-- **A piece of a template**: a character that stands for itself, or what is between the braces
of a group. -/
inductive Piece
  | literal (c : Char)
  | group (inside : List Char)
  deriving DecidableEq, Repr

/-- The text of a piece. -/
def Piece.text : Piece → List Char
  | .literal c => [c]
  | .group inside => '\x7b' :: inside ++ ['\x7d']

/-- Whether a character is a brace. -/
def isBrace (c : Char) : Bool :=
  c == '\x7b' || c == '\x7d'

/-- **The pieces of a text**: an opening brace begins a group when the next brace closes it. All
other characters, braces included, stand for themselves. -/
def scan : List Char → List Piece
  | [] => []
  | c :: rest =>
    if c = '\x7b' then
      match split : rest.dropWhile (!isBrace ·) with
      | d :: after =>
        if d = '\x7d' then
          have : after.length < rest.length := by
            have := (List.dropWhile_suffix (l := rest) (!isBrace ·)).length_le
            rw [split] at this
            exact Nat.lt_of_succ_le (by simpa using this)
          .group (rest.takeWhile (!isBrace ·)) :: scan after
        else .literal c :: scan rest
      | [] => .literal c :: scan rest
    else .literal c :: scan rest
termination_by cs => cs.length

/-- The name in a group: what stands in front of the first `=`, without blank ends. -/
def groupName (inside : List Char) : List Char :=
  trimList (inside.takeWhile (· ≠ '='))

/-- **A parameter of a template**: its text with the braces, and the path of proto field names
that it stands for. -/
structure Parameter where
  template : String
  segments : List String
  deriving DecidableEq, Repr

/-- The parameter that a group stands for. -/
def Piece.parameter? : Piece → Option Parameter
  | .literal _ => none
  | .group inside =>
    some ⟨String.ofList (Piece.group inside).text, split '.' (String.ofList (groupName inside))⟩

/-- Whether a piece is a group without a name. -/
def Piece.isNameless : Piece → Bool
  | .literal _ => false
  | .group inside => groupName inside == []

/-- Whether a piece is a brace that stands for itself. -/
def Piece.isStray : Piece → Bool
  | .literal c => isBrace c
  | .group _ => false

/-- **The parameters of a template**, in order. Groups without a name are looked for before stray
braces. -/
def parameters? (path : String) : Except TemplateFault (List Parameter) :=
  let pieces := scan path.toList
  if pieces.any Piece.isNameless then .error .blankParameter
  else if pieces.any Piece.isStray then .error .strayBrace
  else .ok (pieces.filterMap Piece.parameter?)

/-- The pieces are the text, piece by piece. -/
theorem flatMap_text_scan (cs : List Char) : (scan cs).flatMap Piece.text = cs := by
  fun_induction scan cs with
  | case1 => rfl
  | case2 rest after hcloses _ ih =>
    have hwhole := List.takeWhile_append_dropWhile (p := (!isBrace ·)) (l := rest)
    rw [hcloses] at hwhole
    rw [List.flatMap_cons, ih, Piece.text]
    simpa using hwhole
  | case3 rest _ _ _ _ ih => simp [Piece.text, ih]
  | case4 rest _ ih => simp [Piece.text, ih]
  | case5 c rest _ ih => simp [Piece.text, ih]

end ProtoClient.PathTemplate
