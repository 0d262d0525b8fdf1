/-!
# Faults

A run fails at its first fault. Every fault is a cause with the names that matter for it; the
wording is in one place. A run that goes on for ever has no fault, and no result either.

## Main definitions

* `TemplateFault`: what is wrong with a path template
* `Fault`: why a run fails
* `Fault.message`: the wording of a fault
* `NoResult`: why a run has no result
-/

namespace ProtoClient

/-- What is wrong with a path template. -/
inductive TemplateFault
  /-- A parameter has no name. -/
  | blankParameter
  /-- A brace belongs to no parameter. -/
  | strayBrace
  deriving DecidableEq, Repr

/-- The wording of what is wrong with a path template. -/
def TemplateFault.message : TemplateFault → String
  | .blankParameter => "empty path parameter"
  | .strayBrace => "unbalanced braces"

/-- **Faults**: why a run fails. -/
inductive Fault
  /-- A file refers to a type that no file declares. -/
  | unknownType (file name : String)
  /-- A type is declared a second time. -/
  | duplicateType (name first second : String)
  /-- The HTTP rule of a method has a malformed path. -/
  | malformedPath (file method path : String) (reason : TemplateFault)
  /-- A requested file is not among the files. -/
  | missingFile (file : String)
  /-- The renderer fails at a file. -/
  | rendering (file reason : String)
  /-- The renderer fails at the shared fetch module. -/
  | fetchRendering (path reason : String)
  /-- The fetch module that is there already cannot be read. -/
  | probing (path reason : String)
  deriving DecidableEq, Repr

/-- **The wording of a fault**; what the renderer or the probe says comes last. -/
def Fault.message : Fault → String
  | .unknownType file name => "unknown type `" ++ name ++ "` referenced from " ++ file
  | .duplicateType name first second =>
    "type `" ++ name ++ "` is declared in both " ++ first ++ " and " ++ second
  | .malformedPath file method path reason =>
    "invalid http path template `" ++ path ++ "` on " ++ method ++ " in " ++ file ++ ": " ++
      reason.message
  | .missingFile file =>
    "file to generate " ++ file ++ " is not among the request's proto files"
  | .rendering file reason => "error generating ts file for " ++ file ++ ": " ++ reason
  | .fetchRendering path reason => "error generating fetch module at " ++ path ++ ": " ++ reason
  | .probing path reason =>
    "failed to read existing fetch module at " ++ path ++ ": " ++ reason

/-- **Why a run has no result**: it fails, or it does not come to an end. What never ends has no
fault to tell of, and nothing that stands behind it is reached. -/
inductive NoResult
  | fault (fault : Fault)
  | endless
  deriving DecidableEq, Repr

end ProtoClient
