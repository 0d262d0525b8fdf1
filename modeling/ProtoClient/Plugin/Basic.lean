import ProtoClient.ClientModule.Json
import ProtoClient.Descriptor.Conversion
import ProtoClient.Json.Printer
import ProtoClient.Plugin.Response

/-!
# The plugin

One call by the proto compiler: the bytes of a request come in, and an answer goes out. A request
that cannot be read fails the call; a run that fails is an answer too, with the wording of the
fault as its error. Only a run that does not come to an end is not answered.

## Main definitions

* `PluginRequest`: the request of a run with its parameters
* `PluginRequest.ofBytes? bytes`: the request that the bytes are
* `PluginRequest.answer? renderer probe request`: the answer to a request
* `PluginRequest.describe request`: the requested modules as JSON

## Main results

* `PluginRequest.answer?_of_fault`: the error of an answer is the wording of the fault
-/

namespace ProtoClient

open Text

/-- Why a request cannot be read. -/
inductive RequestFault
  /-- The bytes are no request. -/
  | undecodable
  /-- A descriptor is malformed. -/
  | malformed (fault : ConversionFault)
  deriving DecidableEq, Repr

/-- The wording of why a request cannot be read. -/
def RequestFault.message : RequestFault → String
  | .undecodable => "failed to decode CodeGeneratorRequest"
  | .malformed fault => "failed to convert proto descriptors: " ++ fault.message

/-- **A request of the proto compiler**: the request of a run, and its parameters. -/
structure PluginRequest where
  request : Request
  parameters : Parameters

namespace PluginRequest

/-- **The request that the bytes are**, or why they cannot be read. -/
def ofBytes? (bytes : List UInt8) : Except RequestFault PluginRequest :=
  match GeneratorRequest.decode? bytes with
  | none => .error .undecodable
  | some raw =>
    match raw.toRequest? with
    | .ok request => .ok ⟨request, .ofText (raw.parameter.getD "")⟩
    | .error fault => .error (.malformed fault)

/-- The options of the run. -/
def options (request : PluginRequest) : Options :=
  .ofParameters request.parameters

/-- The features that every answer declares: fields with explicit presence are supported. -/
def supportedFeatures : Nat := 1

/-- **The answer to a request**: the outputs of the run, or its fault. A run that does not come to
an end has no answer. -/
def answer? (renderer : Renderer) (probe : Probe) (request : PluginRequest) : Option Response :=
  match generate request.options renderer probe request.request with
  | .ok outputs => some {
      supportedFeatures := some supportedFeatures
      files := outputs.map fun output => ⟨some output.name, some output.content⟩ }
  | .error (.fault fault) => some {
      error := some fault.message
      supportedFeatures := some supportedFeatures }
  | .error .endless => none

/-- **The requested modules as JSON**, or why there are none. -/
def describe (request : PluginRequest) : Except NoResult String := do
  let modules ← modulesOf request.options request.request.files
  let selected ← (select modules request.request.requested).mapError .fault
  return (Json.array (selected.map ClientModule.toJson)).pretty

/-- The error of an answer is the wording of the fault. -/
theorem answer?_of_fault {renderer : Renderer} {probe : Probe} {request : PluginRequest}
    {fault : Fault}
    (h : generate request.options renderer probe request.request = .error (.fault fault)) :
    request.answer? renderer probe = some
      { error := some fault.message, supportedFeatures := some supportedFeatures } := by
  rw [answer?, h]

end PluginRequest

end ProtoClient
