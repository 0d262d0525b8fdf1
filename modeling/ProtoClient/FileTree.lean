import ProtoClient.Disk

/-!
# File trees

A disk with directories, as an operating system shows it: a path is followed from the working
directory or from the root, step by step, and every step but the last has to lead into a
directory. Files lie in directories, which are made when something is written below them.

## Main definitions

* `PathFault`: why a path leads nowhere, with the wording of the system
* `FileTree`: directories and files by their places, and the working directory
* `FileTree.read?`, `FileTree.write?`, `FileTree.append?`, `FileTree.makeDirectory?`,
  `FileTree.remove`
* `FileTree.probe tree`: a probe that reads from the tree
-/

namespace ProtoClient

open Text

/-- **Why a path leads nowhere.** -/
inductive PathFault
  | missing
  | notDirectory
  | isDirectory
  | nameTooLong
  | nulInName
  deriving DecidableEq, Repr

/-- The wording of the system. -/
def PathFault.message : PathFault → String
  | .missing => "No such file or directory (os error 2)"
  | .notDirectory => "Not a directory (os error 20)"
  | .isDirectory => "Is a directory (os error 21)"
  | .nameTooLong => "File name too long (os error 36)"
  | .nulInName => "file name contained an unexpected NUL byte"

/-- The fault that the system has a number for. -/
def PathFault.ofNumber? : Nat → Option PathFault
  | 2 => some .missing
  | 20 => some .notDirectory
  | 21 => some .isDirectory
  | 36 => some .nameTooLong
  | _ => none

/-- What is at a place. -/
inductive Entry
  | directory
  | file (bytes : List UInt8)
  deriving DecidableEq, Repr

/-- **A file tree**: what is at each place below the root, and the working directory. A place is
the names on the way to it. -/
structure FileTree where
  entries : List (List String × Entry)
  working : List String
  /-- How many bytes the system is handed in front of a relative path: none where it keeps the
  working directory itself, and otherwise the path of that directory. -/
  lead : Nat
  deriving Repr

namespace FileTree

/-- What is at a place; the root is a directory. -/
def at? (tree : FileTree) (place : List String) : Option Entry :=
  if place = [] then some .directory else tree.entries.lookup place

/-- The tree with an entry at a place, instead of what was there. -/
def put (tree : FileTree) (place : List String) (entry : Entry) : FileTree :=
  { tree with entries := (place, entry) :: tree.entries.filter (·.1 ≠ place) }

/-- The steps of a path from the root: a relative path goes on from the working directory, which
need not be there. -/
def steps (tree : FileTree) (path : String) : List String :=
  if hasFront "/" path then split '/' path else tree.working ++ split '/' path

/-- A path that the system takes at all: without the null character, and not too long with the bytes
that are put in front of it where it is relative. -/
def checkPath (lead : Nat) (path : String) : Except PathFault Unit :=
  let front := if hasFront "/" path then 0 else lead
  if path.toList.contains '\x00' then .error .nulInName
  else if 4096 ≤ front + (utf8 path).length then .error .nameTooLong
  else .ok ()

/-- One step of a path. A name leads on whether or not something is there. -/
def step (tree : FileTree) (place : List String) (name : String) :
    Except PathFault (List String) :=
  match tree.at? place with
  | none => .error .missing
  | some (.file _) => .error .notDirectory
  | some .directory =>
    if name = "" ∨ name = "." then .ok place
    else if name = ".." then .ok place.dropLast
    else if 255 < (utf8 name).length then .error .nameTooLong
    else .ok (place ++ [name])

/-- **Where a path leads**, whether or not something is there. -/
def follow? (tree : FileTree) (path : String) : Except PathFault (List String) := do
  checkPath tree.lead path
  (tree.steps path).foldlM tree.step []

/-- **The bytes of the file at a path.** -/
def read? (tree : FileTree) (path : String) : Except PathFault (List UInt8) := do
  let place ← tree.follow? path
  match tree.at? place with
  | none => .error .missing
  | some .directory => .error .isDirectory
  | some (.file bytes) => .ok bytes

/-- One step of a path along which missing directories are made. -/
def stepMaking (state : FileTree × List String) (name : String) :
    Except PathFault (FileTree × List String) := do
  let place ← state.1.step state.2 name
  match state.1.at? place with
  | none => .ok (state.1.put place .directory, place)
  | some (.file _) => .error .notDirectory
  | some .directory => .ok (state.1, place)

/-- The steps of a path from the root without those that stay. -/
def movingSteps (tree : FileTree) (path : String) : List String :=
  (tree.steps path).filter fun step => step ≠ "" ∧ step ≠ "."

/-- **The tree with a directory at a path**, and with those on the way to it. -/
def makeDirectory? (tree : FileTree) (path : String) : Except PathFault FileTree := do
  checkPath tree.lead path
  let (tree, _) ← (tree.movingSteps path).foldlM stepMaking (tree, [])
  return tree

/-- **The tree with a file at a path**, and with the directories on the way to it. -/
def write? (tree : FileTree) (path : String) (bytes : List UInt8) :
    Except PathFault FileTree := do
  checkPath tree.lead path
  let steps := tree.movingSteps path
  let (tree, directory) ← steps.dropLast.foldlM stepMaking (tree, [])
  let place ← tree.step directory (steps.getLastD ".")
  match tree.at? place with
  | some .directory => .error .isDirectory
  | _ => return tree.put place (.file bytes)

/-- The tree with further bytes at the end of the file at a path. The file is looked for before the
directories on the way are made; where the path does not lead to it, it begins anew. -/
def append? (tree : FileTree) (path : String) (bytes : List UInt8) : Except PathFault FileTree :=
  match tree.read? path with
  | .ok front => tree.write? path (front ++ bytes)
  | .error .missing => tree.write? path bytes
  | .error fault => .error fault

/-- Whether the last step of a path is a name. A directory that a path leads to by `.` or `..`
cannot be taken away along that path. -/
def endsInName (tree : FileTree) (path : String) : Bool :=
  match ((tree.steps path).filter (· ≠ "")).getLast? with
  | some step => step ≠ "." ∧ step ≠ ".."
  | none => false

/-- The tree without what is below a place. -/
def emptied (tree : FileTree) (place : List String) : FileTree :=
  { tree with
    entries := tree.entries.filter fun entry => !place.isPrefixOf entry.1 || entry.1 == place }

/-- The tree without what is at a place itself. -/
def without (tree : FileTree) (place : List String) : FileTree :=
  { tree with entries := tree.entries.filter (·.1 ≠ place) }

/-- **The tree without what is at a path**, and without everything below it. A directory is emptied
before it is taken away, and it stays where its path does not end in a name, or leads through what
was below it. -/
def remove (tree : FileTree) (path : String) : FileTree :=
  match tree.follow? path with
  | .error _ => tree
  | .ok place =>
    let rest := tree.emptied place
    match rest.follow? path with
    | .error _ => rest
    | .ok _ => if rest.endsInName path then rest.without place else rest

/-- The files below the working directory by their paths from there, with their bytes. -/
def files (tree : FileTree) : Disk :=
  .ofList <| tree.entries.filterMap fun (place, entry) =>
    match entry with
    | .file bytes =>
      if tree.working.isPrefixOf place then
        some ("/".intercalate (place.drop tree.working.length), bytes)
      else none
    | .directory => none

/-- **The probe that reads from a tree.** A file that is not there is no failure. -/
def probe (tree : FileTree) : Probe :=
  fun path =>
    match tree.read? path with
    | .ok bytes => .ok (some bytes)
    | .error .missing => .ok none
    | .error fault => .error fault.message

end FileTree

end ProtoClient
