import ProtoClient.Path

/-!
# Output paths and import specifiers

Every proto file has one generated module. Modules import each other by a specifier, which is the
path of the imported module seen from the directory of the importing one, without the extension.

## Main definitions

* `outputPath name`: the path of the module generated for a proto file
* `specifier source target`: how the module at `source` imports the one at `target`
-/

namespace ProtoClient

open Text

/-- **The path of the module** generated for a proto file. -/
def outputPath (name : String) : String :=
  withoutEnd ".proto" (slashed name) ++ ".pb.ts"

/-- How many steps two paths share at the front. -/
def sharedLength : List String → List String → Nat
  | a :: rest, b :: rest' => if a = b then sharedLength rest rest' + 1 else 0
  | _, _ => 0

/-- The steps from the directory `here` to the place `there`: up to the directory they share,
then down. -/
def relativeSteps (here there : List String) : List String :=
  let shared := sharedLength here there
  List.replicate (here.length - shared) ".." ++ there.drop shared

/-- **The import specifier** of the module at `target` in the module at `source`. Both paths are
relative to one root, and the specifier always begins with `./` or `../`; an absolute target is
imported by its absolute path. -/
def specifier (source target : String) : String :=
  if hasFront "/" (slashed target) then withoutEnd ".ts" (joinClean "/" target)
  else
    let here := (split '/' (joinClean "." source)).dropLast
    let there := split '/' (joinClean "." target)
    let name := withoutEnd ".ts" (there.getLastD "")
    let text := "/".intercalate (relativeSteps here there.dropLast ++ [name])
    if hasFront "../" text then text else "./" ++ text

end ProtoClient
