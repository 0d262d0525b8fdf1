import ProtoClient.TypeScript.Request

/-!
# Writing modules

The layout of a generated module: the heading, the imports, the declarations that oneofs need, the
enums, the object types and the clients, each followed by an empty line.

## Main definitions

* `headingLines stylingCheck`: the heading that all generated modules share
* `ClientModule.text`: the text of a module
* `ClientModule.boundNames`: the names that the text binds at its top level
-/

namespace ProtoClient

open Text

/-- **The heading of every generated module.** Without the styling check, type checkers and
linters are told to pass over it. -/
def headingLines (stylingCheck : Bool) : List String :=
  ["/*", "* This file is a generated Typescript file for GRPC Gateway, DO NOT MODIFY", "*/"] ++
    (if stylingCheck then [] else ["/* eslint-disable */", "// @ts-nocheck"]) ++ [""]

/-- The line of an import. -/
def Import.line (imported : Import) : String :=
  "import \x7b " ++ ", ".intercalate imported.identifiers ++ " \x7d from \"" ++
    imported.specifier ++ "\""

/-- The import block of a module: the shared fetch module first. -/
def ClientModule.importLines (module : ClientModule) : List String :=
  let fetch := module.fetch.toList.map fun specifier =>
    "import * as fm from \"" ++ specifier ++ "\""
  let imports := fetch ++ module.imports.map Import.line
  if imports.isEmpty then [] else imports ++ [""]

/-- The declarations that oneofs need, in a module that has some. -/
def ClientModule.oneOfBlock (module : ClientModule) : List String :=
  if module.objects.any (!·.choices.isEmpty) then oneOfLines ++ [""] else []

/-- The lines of a module. -/
def ClientModule.lines (module : ClientModule) : List String :=
  headingLines module.stylingCheck ++ module.importLines ++ module.oneOfBlock ++
    module.enums.flatMap (fun enum => enum.lines ++ [""]) ++
    module.objects.flatMap (fun object => object.lines ++ [""]) ++
    module.clients.flatMap (fun client => client.lines ++ [""])

/-- **The text of a module.** -/
def ClientModule.text (module : ClientModule) : String :=
  Text.lines module.lines

/-- **The names that a module binds** at its top level: the shared fetch module, the imported
identifiers, what oneofs are written with, the base types, and the declared types and clients. -/
def ClientModule.boundNames (module : ClientModule) : List String :=
  (if module.fetch.isSome then ["fm"] else []) ++
    module.imports.flatMap Import.identifiers ++
    (if module.objects.any (!·.choices.isEmpty) then ["Absent", "OneOf"] else []) ++
    (module.objects.filter (!·.choices.isEmpty)).map ObjectType.baseName ++
    module.enums.map StringEnum.identifier ++
    module.objects.map ObjectType.identifier ++
    module.clients.map Client.identifier

end ProtoClient
