import ProtoClient.Text.Split
import ProtoClient.Text.Capital

/-!
# Type names and property names

Messages and enums are known by their qualified name, the package and the names of the enclosing
messages joined by dots. A reference may carry one dot in front. In the generated code a type is
called by its identifier, which joins the same segments by `$`, and a field by its lower camel
case unless the file asks for something else.

## Main definitions

* `withoutDot name`: the name without one dot in front
* `qualify scope name`: the name inside a scope
* `identifier name`: the identifier of a type
* `camelCase name`: the lower camel case of a field name

## Main results

* `withoutDot_dot`: one dot in front is not part of a name
* `camelCaseFrom_eq_self`: a name without underscores is its own camel case
-/

namespace ProtoClient

open Text

/-- The name without one dot in front. -/
def withoutDot (name : String) : String :=
  match name.toList with
  | '.' :: rest => String.ofList rest
  | _ => name

/-- The qualified name of what is called `name` inside `scope`; the outermost scope is empty. -/
def qualify (scope name : String) : String :=
  if scope = "" then name else scope ++ "." ++ name

/-- **The identifier of a type**: the segments of its qualified name joined by `$`. -/
def identifier (name : String) : String :=
  "$".intercalate (split '.' (withoutDot name))

/-- The lower camel case of a text: underscores go, and what follows them is capitalised. The
flag says that an underscore has just gone. -/
def camelCaseFrom (raised : Bool) : List Char → List Char
  | [] => []
  | c :: rest =>
    if c = '_' then camelCaseFrom true rest
    else (if raised then capital c else [c]) ++ camelCaseFrom false rest

/-- **The lower camel case** of a field name. -/
def camelCase (name : String) : String :=
  String.ofList (camelCaseFrom false name.toList)

@[simp] theorem withoutDot_dot (name : String) : withoutDot ("." ++ name) = name := by
  simp [withoutDot]

theorem camelCaseFrom_eq_self {cs : List Char} (h : '_' ∉ cs) : camelCaseFrom false cs = cs := by
  induction cs with
  | nil => rfl
  | cons c rest ih =>
    simp only [List.mem_cons, not_or] at h
    simp [camelCaseFrom, Ne.symm h.1, ih h.2]

end ProtoClient
