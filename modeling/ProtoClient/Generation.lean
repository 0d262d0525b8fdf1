import ProtoClient.ClientModule.Resolution
import ProtoClient.Selection
import ProtoClient.Text.Utf8

/-!
# Generating a run

A run turns proto files into the texts of client modules. How a module is written and what is
already at a path are given from outside, by a renderer and a probe. A run either fails as a whole
or yields all its outputs.

## Main definitions

* `Renderer`, `Probe`: what a run is given
* `Request`: the files of a run and those that modules are requested for
* `Output`: a path and the text to be written there
* `outputsOf options renderer probe modules requested`: the run after its modules are resolved
* `generate options renderer probe request`: the outputs of a run, or why it has none

## Main results

* `moduleOutput_of_isEmpty`: an empty module is written without the renderer
-/

namespace ProtoClient

open Text

/-- **A renderer** writes modules; where it fails it says why. -/
structure Renderer where
  renderModule : ClientModule → Except String String
  /-- The shared fetch module, which depends on the styling check alone. -/
  renderFetch : (stylingCheck : Bool) → Except String String

/-- **A probe** reads what is at a path: nothing, or bytes; where it fails it says why. -/
abbrev Probe := String → Except String (Option (List UInt8))

/-- **The request of a run**: all files, and the names of those that modules are wanted for. -/
structure Request where
  files : List File
  requested : List String
  deriving Repr, Inhabited

/-- **An output**: a path and the text to be written there. -/
structure Output where
  name : String
  content : String
  deriving DecidableEq, Repr, Inhabited

/-- The text of a module in which nothing is generated. -/
def emptyModuleText : String := "export default \x7b\x7d"

/-- The output for a module: the rendered text without its blank ends. -/
def moduleOutput (renderer : Renderer) (module : ClientModule) : Except Fault Output :=
  if module.isEmpty then .ok ⟨module.output, emptyModuleText⟩
  else
    match renderer.renderModule module with
    | .ok text => .ok ⟨module.output, trim text⟩
    | .error reason => .error (.rendering module.name reason)

/-- The text of the shared fetch module without its blank ends. -/
def fetchText (options : Options) (renderer : Renderer) : Except Fault String :=
  match renderer.renderFetch options.stylingCheck with
  | .ok text => .ok (trim text)
  | .error reason => .error (.fetchRendering options.fetchPath reason)

/-- The output for the shared fetch module; there is none where exactly its bytes are at its path
already. -/
def fetchOutput (options : Options) (renderer : Renderer) (probe : Probe) :
    Except Fault (Option Output) := do
  let text ← fetchText options renderer
  match probe options.fetchPath with
  | .error reason => .error (.probing options.fetchPath reason)
  | .ok present =>
    if present = some (utf8 text) then return none
    else return some ⟨options.fetchPath, text⟩

/-- **The run after its modules are resolved**: one output for each requested module, and the shared
fetch module last if some requested module needs it. -/
def outputsOf (options : Options) (renderer : Renderer) (probe : Probe)
    (modules : List ClientModule) (requested : List String) : Except Fault (List Output) := do
  let selected ← select modules requested
  let outputs ← selected.mapM (moduleOutput renderer)
  if selected.any ClientModule.needsFetch then
    let fetch ← fetchOutput options renderer probe
    return outputs ++ fetch.toList
  else return outputs

/-- **The outputs of a run**, or why it has none. -/
def generate (options : Options) (renderer : Renderer) (probe : Probe) (request : Request) :
    Except NoResult (List Output) := do
  let modules ← modulesOf options request.files
  (outputsOf options renderer probe modules request.requested).mapError .fault

/-- An empty module is written without the renderer. -/
theorem moduleOutput_of_isEmpty {renderer : Renderer} {module : ClientModule}
    (h : module.isEmpty = true) :
    moduleOutput renderer module = .ok ⟨module.output, emptyModuleText⟩ :=
  if_pos h

end ProtoClient
