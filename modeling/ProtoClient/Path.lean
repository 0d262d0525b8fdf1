import ProtoClient.Text.Split

/-!
# Paths

A path is a sequence of steps between slashes, from the root or from wherever the reader stands.
An empty step and `.` stay, `..` goes up, any other step goes down. Paths are cleaned by their
text alone: no directory is looked at.

## Main definitions

* `Path`: a path as its steps
* `Path.clean`: the path without the steps that stay and without detours
* `Path.walk place steps`: where the steps lead from a place
* `slashed s`: the text with slashes for backslashes
* `joinClean dir file`: a directory and a path in it, joined and cleaned
* `directory path`: the directory that a path lies in

## Main results

* `Path.absolute_clean`: cleaning keeps where a path starts
* `Path.walk_append`: a walk goes on from where an earlier one ended
-/

namespace ProtoClient

open Text

/-- The text with a slash for every backslash. -/
def slashed (s : String) : String :=
  String.ofList (s.toList.map fun c => if c = '\\' then '/' else c)

/-- **Paths**: whether the path starts at the root, and its steps. -/
structure Path where
  absolute : Bool
  steps : List String
  deriving DecidableEq, Repr

namespace Path

/-- The path written as `text`: the steps are what stands between the slashes. -/
def ofText (text : String) : Path :=
  ⟨hasFront "/" text, split '/' text⟩

/-- One step from a place that is given by the cleaned steps to it, the last one first. At the
root `..` stays; a relative path remembers that it left its start. -/
def advance (absolute : Bool) (place : List String) (step : String) : List String :=
  if step = "" ∨ step = "." then place
  else if step = ".." then
    match place with
    | [] => if absolute then [] else [".."]
    | last :: before =>
      if last ≠ ".." then before
      else if absolute then place
      else ".." :: place
  else step :: place

/-- **The clean path**: the steps that are left when detours are cut. -/
def clean (path : Path) : Path :=
  ⟨path.absolute, (path.steps.foldl (advance path.absolute) []).reverse⟩

/-- The text of a path; a relative path without steps is `.`. -/
def toText (path : Path) : String :=
  let body := "/".intercalate path.steps
  if path.absolute then "/" ++ body
  else if body = "" then "."
  else body

/-- Where a step leads from a place, which is given by the names on the way to it from the root. At
the root `..` stays. -/
def follow (place : List String) (step : String) : List String :=
  if step = "" ∨ step = "." then place
  else if step = ".." then place.dropLast
  else place ++ [step]

/-- **Where steps lead from a place.** -/
def walk (place : List String) (steps : List String) : List String :=
  steps.foldl follow place

@[simp] theorem walk_nil (place : List String) : walk place [] = place := rfl

@[simp] theorem walk_cons (place : List String) (step : String) (steps : List String) :
    walk place (step :: steps) = walk (follow place step) steps := rfl

/-- A walk goes on from where an earlier one ended. -/
theorem walk_append (place : List String) (front rest : List String) :
    walk place (front ++ rest) = walk (walk place front) rest := List.foldl_append

@[simp] theorem absolute_clean (path : Path) : path.clean.absolute = path.absolute := rfl

theorem advance_down (absolute : Bool) (place : List String) {step : String} (hempty : step ≠ "")
    (hdot : step ≠ ".") (hdots : step ≠ "..") : advance absolute place step = step :: place := by
  simp [advance, hempty, hdot, hdots]

end Path

/-- **A path in a directory**, joined and cleaned, with slashes for backslashes. -/
def joinClean (dir file : String) : String :=
  (Path.ofText (slashed dir ++ "/" ++ slashed file)).clean.toText

/-- The directory that a path lies in: what stands before its last slash, or `.` where it has
none. -/
def directory (path : String) : String :=
  match (split '/' path).dropLast with
  | [] => "."
  | steps => "/".intercalate steps

end ProtoClient
