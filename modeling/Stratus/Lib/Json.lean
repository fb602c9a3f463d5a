import Mathlib.Data.List.Basic

/-! JSON values, as a JavaScript program sees what `JSON.parse` gives it.  A field that
is `undefined` is not there. -/
namespace Stratus.Lib

inductive Json where
  | null
  | bool (value : Bool)
  | num (value : Rat)
  | str (value : String)
  | arr (items : List Json)
  | obj (fields : List (String × Json))

namespace Json

/-- A member by name; the keys of an object are distinct. -/
def field (key : String) : Json → Option Json
  | .obj fields => fields.lookup key
  | _ => none

def truthy : Json → Bool
  | .null => false
  | .bool value => value
  | .num value => value ≠ 0
  | .str value => value ≠ ""
  | .arr _ => true
  | .obj _ => true

/-- `typeof value === "object"` for a value that is not `null`. -/
def isObject : Json → Bool
  | .arr _ => true
  | .obj _ => true
  | _ => false

def isString : Json → Bool
  | .str _ => true
  | _ => false

def isNumber : Json → Bool
  | .num _ => true
  | _ => false

/-- The comparison of `Map` and `Array.prototype.includes`; two objects that have been
parsed are never the same. -/
def same : Json → Json → Bool
  | .null, .null => true
  | .bool a, .bool b => a = b
  | .num a, .num b => a = b
  | .str a, .str b => a = b
  | _, _ => false

/-- `items.includes(value)`. -/
def includes (items : List Json) (value : Json) : Bool := items.any fun item => item.same value

/-- An object literal, some members of which may be `undefined`. -/
def object (fields : List (String × Option Json)) : Json :=
  .obj (fields.filterMap fun member => member.2.map fun value => (member.1, value))

/-- The literal `{ ...value, key: member }`. -/
def withMember (key : String) (member : Json) : Json → Json
  | .obj fields =>
      if fields.any fun old => old.1 = key then
        .obj (fields.map fun old => if old.1 = key then (key, member) else old)
      else .obj (fields ++ [(key, member)])
  | _ => .obj [(key, member)]

/-- `value || other`. -/
def or (value : Option Json) (other : Json) : Json :=
  match value with
  | some value => if value.truthy then value else other
  | none => other

/-- `value` if it is an array, else the empty one. -/
def items : Option Json → List Json
  | some (.arr items) => items
  | _ => []

end Json

end Stratus.Lib
