import ProtoClient.ClientModule.Basic
import ProtoClient.Fault

/-!
# Selecting the requested modules

All files of a run take part in resolution, but modules are written for the requested ones alone:
one for each requested name, in the order of the first requests.

## Main definitions

* `named? modules name`: the last module of a name
* `select modules requested`: the requested modules, or the first request that names none

## Main results

* `named?_name`: a module is found under its own name
-/

namespace ProtoClient

/-- The last module of the proto file of that name. -/
def named? (modules : List ClientModule) (name : String) : Option ClientModule :=
  modules.reverse.find? (·.name = name)

/-- **The requested modules**, one for each distinct name in the order of the first requests; or
the first request that names no module. -/
def select (modules : List ClientModule) (requested : List String) :
    Except Fault (List ClientModule) :=
  requested.eraseDups.mapM fun name =>
    match named? modules name with
    | some module => .ok module
    | none => .error (.missingFile name)

/-- A module is found under its own name. -/
theorem named?_name {modules : List ClientModule} {name : String} {module : ClientModule}
    (h : named? modules name = some module) : module.name = name := by
  simpa using List.find?_some h

end ProtoClient
