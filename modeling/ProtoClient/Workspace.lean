import ProtoClient.FileTree

/-!
# Workspaces

Proto files are edited and generated again and again. A workspace holds the files, the parameters
and the store that outputs go to; every run starts from what the earlier ones have left.

## Main definitions

* `Store`: a disk, or a file tree, that is read by a probe and written to
* `Workspace`: files, parameters and store
* `Workspace.setFile`, `Workspace.dropFile`: edits of the files
* `Workspace.generate`, `Workspace.generateAndSave?`: a run

## Main results

* `Workspace.generateAndSave?_of_error`: a run without a result changes nothing
-/

namespace ProtoClient

open Text

/-- **What outputs are written to**: a disk, all reads of which may fail for a reason, or a file
tree. -/
inductive Store
  | disk (held : Disk) (broken : Option String)
  | tree (root : FileTree)

namespace Store

/-- The probe that reads from a store. -/
def probe : Store → Probe
  | .disk held none => held.probe
  | .disk _ (some reason) => fun _ => .error reason
  | .tree root => root.probe

/-- The store with bytes at a path. -/
def write? : Store → String → List UInt8 → Except PathFault Store
  | .disk held broken, path, bytes => .ok (.disk (held.insert path bytes) broken)
  | .tree root, path, bytes => (root.write? path bytes).map .tree

/-- The store with further bytes at the end of a file; a file that is not there has none. -/
def append? : Store → String → List UInt8 → Except PathFault Store
  | .disk held broken, path, bytes =>
    .ok (.disk (held.insert path ((held.get? path).getD [] ++ bytes)) broken)
  | .tree root, path, bytes => (root.append? path bytes).map .tree

/-- The store without what is at a path. -/
def remove : Store → String → Store
  | .disk held broken, path => .disk (held.erase path) broken
  | .tree root, path => .tree (root.remove path)

/-- The store with a directory at a path. A disk has no directories. -/
def makeDirectory? : Store → String → Except PathFault Store
  | .disk held broken, _ => .ok (.disk held broken)
  | .tree root, path => (root.makeDirectory? path).map .tree

/-- The store whose reads fail for a reason, or work again. -/
def setBroken (reason : Option String) : Store → Store
  | .disk held _ => .disk held reason
  | .tree root => .tree root

/-- The store after an output has been written. -/
def save? (store : Store) (outputs : List Output) : Except PathFault Store :=
  outputs.foldlM (fun store output => store.write? output.name (utf8 output.content)) store

/-- The files of a store, by their paths. -/
def files : Store → Disk
  | .disk held _ => held
  | .tree root => root.files

end Store

/-- **A workspace**: the proto files, the parameters of runs, and the store. -/
structure Workspace where
  files : List File
  parameters : Parameters
  store : Store

namespace Workspace

/-- A file in place of the first one of its name, or behind all files. -/
def putFile (file : File) : List File → List File
  | [] => [file]
  | first :: rest => if first.name = file.name then file :: rest else first :: putFile file rest

/-- The workspace with a file in place of the first one of its name. -/
def setFile (workspace : Workspace) (file : File) : Workspace :=
  { workspace with files := putFile file workspace.files }

/-- The workspace without the files of a name. -/
def dropFile (workspace : Workspace) (name : String) : Workspace :=
  { workspace with files := workspace.files.filter (·.name ≠ name) }

/-- The options of runs. -/
def options (workspace : Workspace) : Options :=
  .ofParameters workspace.parameters

/-- **A run** on the files of the workspace, which reads from its store. -/
def generate (workspace : Workspace) (renderer : Renderer) (requested : List String) :
    Except NoResult (List Output) :=
  ProtoClient.generate workspace.options renderer workspace.store.probe
    ⟨workspace.files, requested⟩

/-- The workspace after a run whose outputs are written to its store. -/
def generateAndSave? (workspace : Workspace) (renderer : Renderer) (requested : List String) :
    Except PathFault (Except NoResult (List Output) × Workspace) :=
  match workspace.generate renderer requested with
  | .error reason => .ok (.error reason, workspace)
  | .ok outputs =>
    (workspace.store.save? outputs).map fun store => (.ok outputs, { workspace with store })

/-- A run without a result changes nothing. -/
theorem generateAndSave?_of_error {workspace : Workspace} {renderer : Renderer}
    {requested : List String} {reason : NoResult}
    (h : workspace.generate renderer requested = .error reason) :
    workspace.generateAndSave? renderer requested = .ok (.error reason, workspace) := by
  rw [generateAndSave?, h]

end Workspace

end ProtoClient
