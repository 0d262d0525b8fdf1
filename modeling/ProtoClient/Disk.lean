import ProtoClient.Generation

/-!
# Disks

Runs follow each other on one disk: a run looks at what is at the path of the shared fetch module,
and what it yields is written to the disk before the next one. A disk is a map from paths to bytes;
a path is an exact text.

## Main definitions

* `Disk`: the bytes by path
* `Disk.probe disk`: a probe that reads from the disk
* `Disk.save disk outputs`: the disk after the outputs have been written
-/

namespace ProtoClient

open Text

/-- **A disk**: the bytes at each path. -/
abbrev Disk := NameMap (List UInt8)

namespace Disk

/-- The probe that reads from a disk. -/
def probe (disk : Disk) : Probe :=
  fun path => .ok (disk.get? path)

/-- The disk after an output has been written. -/
def write (disk : Disk) (output : Output) : Disk :=
  disk.insert output.name (utf8 output.content)

/-- **The disk after outputs have been written**, one after another. -/
def save (disk : Disk) (outputs : List Output) : Disk :=
  outputs.foldl write disk

/-- The paths in order, with the number of bytes at each. -/
def sizes (disk : Disk) : List (String × Nat) :=
  disk.entries.map fun (path, bytes) => (path, bytes.length)

end Disk

end ProtoClient
