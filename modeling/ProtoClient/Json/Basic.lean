/-!
# JSON values

JSON documents as values. A number is kept as it is written, by its digits and the number of them
behind the point, so whole numbers of any size are exact; an object keeps its members in order.

## Main definitions

* `Json`: JSON values
* `Json.members?`: the members of a record, written as an object or as an array
* `Json.natural?`, `Json.int32?`: whole numbers within the range of a machine word

## Main results

* `Json.int32?_whole`, `Json.natural?_whole`: whole numbers within range are read back
-/

namespace ProtoClient

/-- **JSON values.** The number `digits` with `places` digits behind the point is
`digits / 10 ^ places`. -/
inductive Json
  | null
  | bool (value : Bool)
  | number (digits : Int) (places : Nat)
  | string (text : String)
  | array (items : List Json)
  | object (fields : List (String × Json))
  deriving Repr, Inhabited

namespace Json

/-- A whole number. -/
abbrev whole (value : Int) : Json := .number value 0

/-- The value, or null. -/
def ofOption {α : Type} (write : α → Json) : Option α → Json
  | some value => write value
  | none => .null

/-- The text of a string. -/
def string? : Json → Option String
  | .string text => some text
  | _ => none

/-- The value of a truth value. -/
def bool? : Json → Option Bool
  | .bool value => some value
  | _ => none

/-- The items of an array. -/
def array? : Json → Option (List Json)
  | .array items => some items
  | _ => none

/-- A whole number of 32 bits with a sign. -/
def int32? : Json → Option Int
  | .number value 0 => if -0x80000000 ≤ value ∧ value < 0x80000000 then some value else none
  | _ => none

/-- A whole number of 64 bits without a sign. -/
def natural? : Json → Option Nat
  | .number value 0 => if 0 ≤ value ∧ value < 0x10000000000000000 then some value.toNat else none
  | _ => none

/-- What may be absent: nothing and null stand for absence, all else is read. -/
def optional? {α : Type} (read : Json → Option α) : Option Json → Option (Option α)
  | none => some none
  | some .null => some none
  | some json => (read json).map some

/-- **The members of a record**, one for each key: it is written as an object, in which further
members do not count, or as the array of all its members in their order. -/
def members? (keys : List String) : Json → Option (List (Option Json))
  | .object fields => some (keys.map fun key => fields.lookup key)
  | .array items => if items.length = keys.length then some (items.map some) else none
  | _ => none

/-- The case of a choice with its value: a case without a value is written as its name. -/
def case? : Json → Option (String × Option Json)
  | .string name => some (name, none)
  | .object [(name, value)] => some (name, some value)
  | _ => none

/-- The case of a choice none of whose cases has a value. -/
def bareCase? (json : Json) : Option String :=
  match json.case? with
  | some (name, none) => some name
  | some (name, some .null) => some name
  | _ => none

theorem int32?_whole {value : Int} (hlow : -0x80000000 ≤ value) (hhigh : value < 0x80000000) :
    (whole value).int32? = some value :=
  if_pos ⟨hlow, hhigh⟩

theorem natural?_whole {value : Nat} (h : value < 0x10000000000000000) :
    (whole value).natural? = some value := by
  have : (0 : Int) ≤ value ∧ (value : Int) < 0x10000000000000000 := ⟨Int.natCast_nonneg _, by omega⟩
  rw [natural?, if_pos this, Int.toNat_natCast]

end Json

end ProtoClient
