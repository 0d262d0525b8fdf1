import ProtoClient.NameMap
import ProtoClient.Path
import ProtoClient.Text.Blank

/-!
# Parameters and options

The caller hands over its parameters as one text, `key=value` pairs between commas. The options of
a run are read from the parameters; keys that no option knows are passed over.

## Main definitions

* `Parameters`: the values by key
* `Parameters.ofText text`: the parameters written as `text`
* `Parameters.toText parameters`: the parameters as one text
* `Options`: the options of a run, and `Options.ofParameters`
* `Options.fetchPath`: where the shared fetch module is written
-/

namespace ProtoClient

open Text

/-- The parameters of a run: their values by key. -/
abbrev Parameters := NameMap String

namespace Parameters

/-- One parameter: key and value around the first `=`, without blank ends. Without a `=` the
whole text is the key, and the value is empty. -/
def ofPart (part : String) : String × String :=
  match cut '=' part with
  | some (key, value) => (trim key, trim value)
  | none => (part, "")

/-- **The parameters written as `text`**: the parts between the commas that are not blank. Of
several values for one key the last counts. -/
def ofText (text : String) : Parameters :=
  .ofList <| (((split ',' text).map trim).filter (· ≠ "")).map ofPart

/-- The parameters as one text. -/
def toText (parameters : Parameters) : String :=
  ",".intercalate (parameters.entries.map fun (key, value) => key ++ "=" ++ value)

/-- A flag is on when its value is exactly `true`. -/
def isOn (parameters : Parameters) (key : String) : Bool :=
  parameters.get? key == some "true"

/-- The value of a key without its blank ends, or the default where that is empty. -/
def textOr (parameters : Parameters) (key default : String) : String :=
  match parameters.get? key with
  | some value => if trim value = "" then default else trim value
  | none => default

/-- How much the run reports about itself. -/
def logLevel (parameters : Parameters) : String :=
  parameters.textOr "loglevel" "warn"

end Parameters

/-- **The options of a run.** -/
structure Options where
  /-- The output is written for linters and type checkers, without the comments that silence
  them. -/
  stylingCheck : Bool := false
  /-- Properties are called by the proto names of their fields. -/
  protoNames : Bool := false
  /-- The directory of the shared fetch module. -/
  fetchDirectory : String := "."
  /-- The file name of the shared fetch module. -/
  fetchFile : String := "fetch.pb.ts"
  deriving DecidableEq, Repr

namespace Options

/-- The options that the parameters ask for. -/
def ofParameters (parameters : Parameters) : Options where
  stylingCheck := parameters.isOn "enable_styling_check"
  protoNames := parameters.isOn "use_proto_names"
  fetchDirectory := parameters.textOr "fetch_module_directory" "."
  fetchFile := parameters.textOr "fetch_module_filename" "fetch.pb.ts"

/-- **The path of the shared fetch module**, cleaned. -/
def fetchPath (options : Options) : String :=
  joinClean options.fetchDirectory options.fetchFile

end Options

end ProtoClient
