import ProtoClient.TypeScript.Declaration
import ProtoClient.TypeScript.Template

/-!
# Writing calls

The code with which an operation calls the server: the URL is a template literal with the path
parameters read from the request, followed by the remaining properties as a query where the call
has no body; the rest of the call is an object with the verb and the body.

## Main definitions

* `propertyAccess path`: the value at a property path of the request
* `Call.url`, `Call.init`: the two parts of a call
* `Operation.lines`, `Client.lines`: the lines of a client
-/

namespace ProtoClient

open Text

/-- **The value at a property path** of the request; what is below the first property may be
absent. -/
def propertyAccess (path : List String) : String :=
  "req" ++ "?.".intercalate (path.map fun name => "[" ++ quote name ++ "]")

/-- Whether the properties that the path leaves over are sent as a query. -/
def Call.sendsQuery (call : Call) : Bool :=
  call.body.isNone && (call.verb == "GET" || call.verb == "DELETE")

/-- The path of a call with its parameters read from the request. -/
def Call.pathText (call : Call) : String :=
  String.ofList <| call.parameters.foldl
    (fun text parameter =>
      replaceFirst (escapeTemplate parameter.template.toList)
        (templateHole (propertyAccess parameter.path)).toList text)
    (escapeTemplate call.path.toList)

/-- The dotted property paths that the path has used, each once. -/
def Call.boundNames (call : Call) : List String :=
  (call.parameters.map fun parameter => ".".intercalate parameter.path).eraseDups

/-- The query of a call: the properties that the path has not used. -/
def Call.queryText (call : Call) : String :=
  "?" ++ templateHole
    ("fm.renderURLSearchParams(req, [" ++ ", ".intercalate (call.boundNames.map quote) ++ "])")

/-- **The URL of a call**, as the text of a template literal. -/
def Call.url (call : Call) : String :=
  if call.sendsQuery then call.pathText ++ call.queryText else call.pathText

/-- The value that is sent as the body. -/
def Call.bodyText : Option String → Option String
  | none => none
  | some body =>
    some <| "JSON.stringify(" ++ (if body = "*" then "req" else propertyAccess [body]) ++
      ", fm.replacer)"

/-- **The rest of a call**: what the caller adds, the verb, and the body. -/
def Call.init (call : Call) : String :=
  let body :=
    match Call.bodyText call.body with
    | some text => ", body: " ++ text
    | none => ""
  "\x7b...initReq, method: " ++ quote call.verb ++ body ++ "\x7d"

/-- **The lines of an operation.** An operation whose answer is a stream hands every part of it to
a callback. -/
def Operation.lines (operation : Operation) : List String :=
  let request := operation.request.text
  let response := operation.response.text
  let types := "<" ++ request ++ ", " ++ response ++ ">"
  let url := "`" ++ operation.call.url ++ "`"
  let init := operation.call.init
  if operation.serverStreaming then
    ["  static " ++ operation.name ++ "(req: " ++ request ++
        ", entityNotifier?: fm.NotifyStreamEntityArrival<" ++ response ++
        ">, initReq?: fm.InitReq): Promise<void> \x7b",
      "    return fm.fetchStreamingRequest" ++ types ++ "(" ++ url ++ ", entityNotifier, " ++
        init ++ ")",
      "  \x7d"]
  else
    ["  static " ++ operation.name ++ "(req: " ++ request ++ ", initReq?: fm.InitReq): Promise<" ++
        response ++ "> \x7b",
      "    return fm.fetchReq" ++ types ++ "(" ++ url ++ ", " ++ init ++ ")",
      "  \x7d"]

/-- **The lines of a client**: a class with a static method for each operation. -/
def Client.lines (client : Client) : List String :=
  ["export class " ++ client.identifier ++ " \x7b"] ++ client.operations.flatMap Operation.lines ++
    ["\x7d"]

end ProtoClient
