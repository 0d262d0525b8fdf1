import ProtoClient.Plugin.Basic
import ProtoClient.TypeScript.Fetch

/-!
# The command line

The program reads a request from its standard input, or from a file that is named on the command
line, and writes the answer, or the requested modules as JSON, to its standard output. It ends
with 0 on success, 1 on failure and 2 when it is called in a wrong way.

## Main definitions

* `Invocation`: what a call asks for
* `parseArguments arguments`: the call that the arguments stand for
* `Outcome`: the exit code and the standard output
* `Invocation.outcome?`: the outcome of a call on the bytes of its request
-/

namespace ProtoClient

open Text

/-- **What a call asks for**: where the request comes from, if not from standard input, and
whether the modules are wanted instead of an answer. -/
structure Invocation where
  requestPath : Option String := none
  dump : Bool := false
  deriving DecidableEq, Repr

/-- What arguments stand for: a call, or the end of the program before one. -/
inductive Reading
  | call (invocation : Invocation)
  | version
  | help
  | misuse
  deriving DecidableEq, Repr

/-- What is named on the command line for a file. An option is no name. -/
def isValue (argument : String) : Bool :=
  argument ≠ "" && (argument = "-" || !hasFront "-" argument)

/-- The single-letter options: only the first letter decides. -/
def parseLetters (argument : String) : Reading :=
  match argument.toList with
  | '-' :: 'V' :: _ => .version
  | '-' :: 'h' :: _ => .help
  | _ => .misuse

/-- The call that the arguments stand for, on top of the one read so far. Each option is given at
most once; the first version, help or misuse ends the reading. -/
def parseFrom (invocation : Invocation) : List String → Reading
  | [] => .call invocation
  | argument :: rest =>
    if argument = "--" then if rest.isEmpty then .call invocation else .misuse
    else if argument = "--version" then .version
    else if argument = "--help" then .help
    else if argument = "--dump-ir" then
      if invocation.dump then .misuse else parseFrom { invocation with dump := true } rest
    else if argument = "--request" then
      match rest with
      | value :: rest =>
        if isValue value && invocation.requestPath.isNone then
          parseFrom { invocation with requestPath := some value } rest
        else .misuse
      | [] => .misuse
    else if hasFront "--request=" argument then
      let value := String.ofList (argument.toList.drop 10)
      if value ≠ "" && invocation.requestPath.isNone then
        parseFrom { invocation with requestPath := some value } rest
      else .misuse
    else parseLetters argument

/-- **The call that the arguments stand for.** -/
def parseArguments (arguments : List String) : Reading :=
  parseFrom {} arguments

/-- **The outcome of a call**: the exit code, the standard output, and what is told beside it. -/
structure Outcome where
  exit : Nat
  output : List UInt8 := []
  report : String := ""
  deriving DecidableEq, Repr

/-- The text that tells the version. -/
def versionText : String := "protoc-gen-gateway-ts 0.1.0\n"

/-- The text that tells how the program is called. -/
def helpText : String := lines [
  "protoc plugin generating TypeScript clients for grpc-gateway services",
  "",
  "Usage: protoc-gen-gateway-ts [OPTIONS]",
  "",
  "Options:",
  "      --request <FILE>  Read the encoded CodeGeneratorRequest from FILE instead of stdin",
  "      --dump-ir         Print the analysed files as JSON instead of writing a response",
  "  -h, --help            Print help",
  "  -V, --version         Print version"]

/-- **The outcome of a call** on the bytes of its request. A run that fails is answered with an
error; without an answer it fails the call. A run that does not come to an end has no outcome. -/
def Invocation.outcome? (invocation : Invocation) (bytes : List UInt8) (probe : Probe) :
    Option Outcome :=
  match PluginRequest.ofBytes? bytes with
  | .error fault => some { exit := 1, report := fault.message }
  | .ok request =>
    if invocation.dump then
      match request.describe with
      | .ok text => some { exit := 0, output := utf8 (text ++ "\n") }
      | .error (.fault fault) => some { exit := 1, report := fault.message }
      | .error .endless => none
    else
      (request.answer? typeScript probe).map fun answer => { exit := 0, output := answer.encode }

/-- The outcome of arguments, given the bytes of standard input, the reading of named files and
the probe of the outputs. -/
def outcomeOf? (arguments : List String) (input : List UInt8)
    (readFile : String → Option (List UInt8)) (probe : Probe) : Option Outcome :=
  match parseArguments arguments with
  | .version => some { exit := 0, output := utf8 versionText }
  | .help => some { exit := 0, output := utf8 helpText }
  | .misuse => some { exit := 2, report := helpText }
  | .call invocation =>
    match invocation.requestPath with
    | none => invocation.outcome? input probe
    | some path =>
      match readFile path with
      | some bytes => invocation.outcome? bytes probe
      | none => some { exit := 1, report := "failed to read " ++ path }

end ProtoClient
