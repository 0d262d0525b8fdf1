import ProtoClient.CommandLine
import ProtoClient.FileTree

/-!
# The program

The outer layer: it reads the request and what is at the path of the shared fetch module, lets
the command line decide, and writes what comes of it.

## Main definitions

* `main`: the program
-/

namespace ProtoClient

/-- The number of an error of the system, which some calls give below zero. -/
def systemNumber (code : UInt32) : Nat :=
  if code.toNat < 0x80000000 then code.toNat else 0x100000000 - code.toNat

/-- The wording of an error of the system: that of the fault with its number, if there is one. -/
def systemText (code : UInt32) (details : String) : String :=
  match PathFault.ofNumber? (systemNumber code) with
  | some fault => fault.message
  | none => details ++ " (os error " ++ toString (systemNumber code) ++ ")"

/-- What is at a path; a file that is not there is no failure. -/
def lookAt (path : String) : IO (Except String (Option (List UInt8))) := do
  if let .error fault := FileTree.checkPath 0 path then
    return .error fault.message
  try
    let bytes ← IO.FS.readBinFile path
    return .ok (some bytes.toList)
  catch
  | .noFileOrDirectory .. => return .ok none
  | .inappropriateType _ code details => return .error (systemText code details)
  | .permissionDenied _ code details => return .error (systemText code details)
  | .invalidArgument _ code details => return .error (systemText code details)
  | .resourceExhausted _ code details => return .error (systemText code details)
  | .otherError code details => return .error (systemText code details)
  | error => return .error (toString error)

/-- The bytes of the request of a call: of the named file, or of standard input. -/
def requestBytes (arguments : List String) : IO (Option (List UInt8)) := do
  match parseArguments arguments with
  | .call { requestPath := some path, .. } => return (← lookAt path).toOption.join
  | .call _ => return some (← (← IO.getStdin).readBinToEnd).toList
  | _ => return none

/-- The path of the shared fetch module of a request. -/
def fetchPathOf (bytes : Option (List UInt8)) : Option String :=
  bytes.bind fun bytes => (PluginRequest.ofBytes? bytes).toOption.map (·.options.fetchPath)

/-- What is told of a run that does not come to an end, which the system stops when its stack is
full. -/
def endlessText : String := "stack overflow"

/-- The exit code of a program that the system has stopped. -/
def endlessExit : UInt32 := 134

end ProtoClient

/-- The program. -/
def main (arguments : List String) : IO UInt32 := do
  let bytes ← ProtoClient.requestBytes arguments
  let present ←
    match ProtoClient.fetchPathOf bytes with
    | some path => ProtoClient.lookAt path
    | none => pure (.ok none)
  match ProtoClient.outcomeOf? arguments (bytes.getD []) (fun _ => bytes) fun _ => present with
  | none =>
    IO.eprintln ProtoClient.endlessText
    return ProtoClient.endlessExit
  | some outcome =>
    unless outcome.report.isEmpty do
      IO.eprintln outcome.report
    (← IO.getStdout).write ⟨outcome.output.toArray⟩
    return outcome.exit.toUInt32
