import ProtoClient.ClientModule.Basic
import ProtoClient.Text.Quoted

/-!
# Writing types

The declarations of a module in TypeScript. An enum is a string enum, since the JSON form has the
names of enum values. In an object type every property may be absent, since the JSON form leaves
default values out. The properties of oneofs stand outside the base type, in groups of which at
most one property is present.

## Main definitions

* `TypeExpr.text`, `Property.typeText`: types as they are written
* `propertyKey name`: a property name as it is declared
* `StringEnum.lines`, `ObjectType.lines`: the lines of a declaration

## Main results

* `propertyKey_of_isPlain`: plain names are declared as they are
-/

namespace ProtoClient

open Text

/-- **A type as it is written.** Keys of maps are always strings in the JSON form. -/
def TypeExpr.text : TypeExpr → String
  | .builtin text => text
  | .object target => target.identifier
  | .enumeration target => target.identifier
  | .map _ value => "\x7b[key: string]: " ++ value.text ++ "\x7d"

/-- The type of a property: an array where it is repeated, around which a compound type stands in
parentheses. -/
def Property.typeText (property : Property) : String :=
  let base := property.type.text
  if property.repeated then
    if base.toList.any (fun c => c == ' ' || c == '|') then "(" ++ base ++ ")[]" else base ++ "[]"
  else base

/-- Whether a character may stand in a plain name. -/
def isPlainChar (c : Char) : Bool :=
  c.isAlphanum || c == '_' || c == '$'

/-- Whether a text is a plain name: letters and digits of ASCII, `_` and `$`, not beginning with a
digit. -/
def isPlain : List Char → Bool
  | [] => false
  | first :: rest => isPlainChar first && !first.isDigit && rest.all isPlainChar

/-- **A property name as it is declared**: quoted unless it is plain. -/
def propertyKey (name : String) : String :=
  if isPlain name.toList then name else quote name

/-- The lines of a string enum. -/
def StringEnum.lines (enum : StringEnum) : List String :=
  ["export enum " ++ enum.identifier ++ " \x7b"] ++
    enum.values.map (fun value => "  " ++ value.name ++ " = \"" ++ value.name ++ "\",") ++ ["\x7d"]

/-- The declaration of a property that may be absent. -/
def Property.line (property : Property) : String :=
  "  " ++ propertyKey property.name ++ "?: " ++ property.typeText

/-- The declaration of a property in the group of its oneof. -/
def Property.member (property : Property) : String :=
  propertyKey property.name ++ ": " ++ property.typeText

/-- The name of the base type of an object type with oneofs. -/
def ObjectType.baseName (object : ObjectType) : String :=
  object.identifier ++ "$$Base"

/-- The properties that belong to no oneof. -/
def ObjectType.baseProperties (object : ObjectType) : List Property :=
  object.properties.filter (·.choice.isNone)

/-- The properties that belong to a oneof. -/
def ObjectType.choiceProperties (object : ObjectType) (choice : Choice) : List Property :=
  object.properties.filter (·.choice = some choice.name)

/-- The line of a oneof, which adds its group of properties to the base type. -/
def ObjectType.choiceLine (object : ObjectType) (choice : Choice) : String :=
  "  & OneOf<\x7b " ++
    "; ".intercalate ((object.choiceProperties choice).map Property.member) ++ " \x7d>"

/-- **The lines of an object type.** Without oneofs it is one type with all properties. -/
def ObjectType.lines (object : ObjectType) : List String :=
  if object.choices.isEmpty then
    ["export type " ++ object.identifier ++ " = \x7b"] ++ object.properties.map Property.line ++
      ["\x7d"]
  else
    ["type " ++ object.baseName ++ " = \x7b"] ++ object.baseProperties.map Property.line ++
      ["\x7d", "", "export type " ++ object.identifier ++ " = " ++ object.baseName] ++
      object.choices.map object.choiceLine

/-- The declarations that the groups of oneofs are written with: an object type of which at most
one property is present. -/
def oneOfLines : List String := [
  "type Absent<T, K extends keyof T> = \x7b [k in Exclude<keyof T, K>]?: undefined \x7d;",
  "type OneOf<T> =",
  "  | \x7b [k in keyof T]?: undefined \x7d",
  "  | (",
  "    keyof T extends infer K ?",
  "      (K extends string & keyof T ? \x7b [k in K]: T[K] \x7d & Absent<T, K>",
  "        : never)",
  "    : never);"]

/-- Plain names are declared as they are. -/
theorem propertyKey_of_isPlain {name : String} (h : isPlain name.toList = true) :
    propertyKey name = name :=
  if_pos h

end ProtoClient
