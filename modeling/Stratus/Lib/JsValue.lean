import Mathlib.Algebra.GroupWithZero.Nat
import Stratus.Lib.Json

/-! The values of a JavaScript program that JSON is made of, and what `JSON.stringify` and
`JSON.parse` make of them.  A member that is `undefined` is not there. -/
namespace Stratus.Lib

/-- A number that is not `NaN`; `===` does not tell the two zeros apart. -/
inductive JsNumber where
  | finite (value : Rat)
  | infinite (negative : Bool)
deriving DecidableEq

namespace JsNumber

/-- The nearest number with 53 significant bits, the even one of two. -/
def roundToDouble (n : Nat) : Nat :=
  let unit := 2 ^ (n.log2 - 52)
  let quotient := n / unit
  let rest := n % unit
  if unit < 2 * rest ∨ (2 * rest = unit ∧ quotient % 2 = 1) then (quotient + 1) * unit
  else quotient * unit

theorem lt_limit {n : Nat} (h : n < 2 ^ 53) : n < 2 ^ 1024 := by
  have hlarger {k : Nat} (hk : 53 ≤ k) : n < 2 ^ k :=
    Nat.lt_of_lt_of_le h (Nat.pow_le_pow_right Nat.two_pos hk)
  exact hlarger (by decide)

/-- The number for an integer, which may be too large. -/
def ofInteger (negative : Bool) (n : Nat) : JsNumber :=
  let rounded := roundToDouble n
  if rounded < 2 ^ 1024 then .finite (if negative then -rounded else rounded)
  else .infinite negative

/-- `parseInt(text, 10)` of a text without blanks in front; `none` is `NaN`. -/
def parseInt (text : List Char) : Option JsNumber :=
  let signed :=
    match text with
    | '-' :: rest => (true, rest)
    | '+' :: rest => (false, rest)
    | rest => (false, rest)
  match signed.2.takeWhile Char.isDigit with
  | [] => none
  | digits => some (ofInteger signed.1 (digits.foldl (fun n c => 10 * n + (c.toNat - '0'.toNat)) 0))

end JsNumber

inductive JsValue where
  | null
  | bool (value : Bool)
  | num (value : JsNumber)
  | str (value : String)
  | arr (items : List JsValue)
  | obj (fields : List (String × JsValue))

namespace JsValue

/-- A member by name; the keys of an object are distinct. -/
def field (key : String) : JsValue → Option JsValue
  | .obj fields => fields.lookup key
  | _ => none

def truthy : JsValue → Bool
  | .null => false
  | .bool value => value
  | .num value => value ≠ .finite 0
  | .str value => value ≠ ""
  | .arr _ => true
  | .obj _ => true

def isNull : JsValue → Bool
  | .null => true
  | _ => false

def isString : JsValue → Bool
  | .str _ => true
  | _ => false

/-- `value || other`. -/
def or (value : Option JsValue) (other : JsValue) : JsValue :=
  match value with
  | some value => if value.truthy then value else other
  | none => other

/-- An object literal, some members of which may be `undefined`. -/
def object (fields : List (String × Option JsValue)) : JsValue :=
  .obj (fields.filterMap fun member => member.2.map fun value => (member.1, value))

/-- The literal `{ ...value, key: member }`. -/
def withMember (key : String) (member : JsValue) : JsValue → JsValue
  | .obj fields =>
      if fields.any fun old => old.1 = key then
        .obj (fields.map fun old => if old.1 = key then (key, member) else old)
      else .obj (fields ++ [(key, member)])
  | _ => .obj [(key, member)]

/-- `value` if it is an array, else the empty one. -/
def items : Option JsValue → List JsValue
  | some (.arr items) => items
  | _ => []

/-! ### JSON -/

mutual

/-- `JSON.stringify`: an infinite number becomes `null`. -/
def toJson : JsValue → Json
  | .null => .null
  | .bool value => .bool value
  | .num (.finite value) => .num value
  | .num (.infinite _) => .null
  | .str value => .str value
  | .arr items => .arr (toJsonItems items)
  | .obj fields => .obj (toJsonFields fields)

def toJsonItems : List JsValue → List Json
  | [] => []
  | item :: items => item.toJson :: toJsonItems items

def toJsonFields : List (String × JsValue) → List (String × Json)
  | [] => []
  | (key, value) :: fields => (key, value.toJson) :: toJsonFields fields

end

mutual

/-- `JSON.parse`. -/
def ofJson : Json → JsValue
  | .null => .null
  | .bool value => .bool value
  | .num value => .num (.finite value)
  | .str value => .str value
  | .arr items => .arr (ofJsonItems items)
  | .obj fields => .obj (ofJsonFields fields)

def ofJsonItems : List Json → List JsValue
  | [] => []
  | item :: items => ofJson item :: ofJsonItems items

def ofJsonFields : List (String × Json) → List (String × JsValue)
  | [] => []
  | (key, value) :: fields => (key, ofJson value) :: ofJsonFields fields

end

mutual

/-- What was parsed is written as it was. -/
theorem toJson_ofJson : (json : Json) → (ofJson json).toJson = json
  | .null => rfl
  | .bool _ => rfl
  | .num _ => rfl
  | .str _ => rfl
  | .arr items => by rw [ofJson, toJson, toJsonItems_ofJsonItems items]
  | .obj fields => by rw [ofJson, toJson, toJsonFields_ofJsonFields fields]

theorem toJsonItems_ofJsonItems : (items : List Json) → toJsonItems (ofJsonItems items) = items
  | [] => rfl
  | item :: items => by rw [ofJsonItems, toJsonItems, toJson_ofJson item, toJsonItems_ofJsonItems items]

theorem toJsonFields_ofJsonFields : (fields : List (String × Json)) →
    toJsonFields (ofJsonFields fields) = fields
  | [] => rfl
  | (key, value) :: fields => by
      rw [ofJsonFields, toJsonFields, toJson_ofJson value, toJsonFields_ofJsonFields fields]

end

/-! Where only the types of numbers matter, one that is infinite may be taken for any other. -/

mutual

/-- The value with a zero for each infinite number. -/
def asJson : JsValue → Json
  | .null => .null
  | .bool value => .bool value
  | .num (.finite value) => .num value
  | .num (.infinite _) => .num 0
  | .str value => .str value
  | .arr items => .arr (asJsonItems items)
  | .obj fields => .obj (asJsonFields fields)

def asJsonItems : List JsValue → List Json
  | [] => []
  | item :: items => item.asJson :: asJsonItems items

def asJsonFields : List (String × JsValue) → List (String × Json)
  | [] => []
  | (key, value) :: fields => (key, value.asJson) :: asJsonFields fields

end

mutual

theorem asJson_ofJson : (json : Json) → (ofJson json).asJson = json
  | .null => rfl
  | .bool _ => rfl
  | .num _ => rfl
  | .str _ => rfl
  | .arr items => by rw [ofJson, asJson, asJsonItems_ofJsonItems items]
  | .obj fields => by rw [ofJson, asJson, asJsonFields_ofJsonFields fields]

theorem asJsonItems_ofJsonItems : (items : List Json) → asJsonItems (ofJsonItems items) = items
  | [] => rfl
  | item :: items => by rw [ofJsonItems, asJsonItems, asJson_ofJson item, asJsonItems_ofJsonItems items]

theorem asJsonFields_ofJsonFields : (fields : List (String × Json)) →
    asJsonFields (ofJsonFields fields) = fields
  | [] => rfl
  | (key, value) :: fields => by
      rw [ofJsonFields, asJsonFields, asJson_ofJson value, asJsonFields_ofJsonFields fields]

end

theorem asJsonItems_eq (items : List JsValue) : asJsonItems items = items.map asJson := by
  induction items with
  | nil => rfl
  | cons item items ih => rw [asJsonItems, ih, List.map_cons]

theorem field_asJson (value : JsValue) (key : String) :
    value.asJson.field key = (value.field key).map asJson := by
  cases value with
  | obj fields =>
      change (asJsonFields fields).lookup key = (fields.lookup key).map asJson
      induction fields with
      | nil => rfl
      | cons field fields ih =>
          obtain ⟨name, member⟩ := field
          rw [asJsonFields, List.lookup_cons, List.lookup_cons]
          cases key == name with
          | true => rfl
          | false => exact ih
  | num value => cases value <;> rfl
  | _ => rfl

theorem ofJsonItems_eq (items : List Json) : ofJsonItems items = items.map ofJson := by
  induction items with
  | nil => rfl
  | cons item items ih => rw [ofJsonItems, ih, List.map_cons]

theorem ofJsonFields_eq (fields : List (String × Json)) :
    ofJsonFields fields = fields.map fun field => (field.1, ofJson field.2) := by
  induction fields with
  | nil => rfl
  | cons field fields ih => rw [ofJsonFields, ih, List.map_cons]

theorem field_ofJson (value : Json) (key : String) :
    (ofJson value).field key = (value.field key).map ofJson := by
  cases value with
  | obj fields =>
      change (ofJsonFields fields).lookup key = (fields.lookup key).map ofJson
      induction fields with
      | nil => rfl
      | cons field fields ih =>
          obtain ⟨name, member⟩ := field
          rw [ofJsonFields, List.lookup_cons, List.lookup_cons]
          cases key == name with
          | true => rfl
          | false => exact ih
  | _ => rfl

theorem items_ofJson (value : Option Json) : items (value.map ofJson) = (Json.items value).map ofJson := by
  cases value with
  | none => rfl
  | some value =>
      cases value with
      | arr values => exact ofJsonItems_eq values
      | _ => rfl

theorem ofJson_withMember (key : String) (member value : Json) :
    ofJson (Json.withMember key member value) = withMember key (ofJson member) (ofJson value) := by
  cases value with
  | obj fields =>
      rw [Json.withMember, ofJson, withMember, ofJsonFields_eq, List.any_map]
      have hany : (fields.any fun old => decide (old.1 = key)) =
          fields.any ((fun old : String × JsValue => decide (old.1 = key)) ∘
            fun field => (field.1, ofJson field.2)) := rfl
      rw [← hany]
      split
      · rw [ofJson, ofJsonFields_eq, List.map_map, List.map_map]
        refine congrArg obj (List.map_congr_left fun field _ => ?_)
        simp only [Function.comp_apply]
        split <;> rfl
      · rw [ofJson, ofJsonFields_eq, List.map_append]
        rfl
  | _ => rfl

/-- An object literal of values that were parsed. -/
theorem ofJson_object (fields : List (String × Option Json)) :
    ofJson (Json.object fields) = object (fields.map fun member => (member.1, member.2.map ofJson)) := by
  rw [Json.object, ofJson, object]
  congr 1
  induction fields with
  | nil => rfl
  | cons member fields ih =>
      obtain ⟨key, value⟩ := member
      cases value with
      | none => simpa using ih
      | some value => simpa [ofJsonFields] using ih

end JsValue

end Stratus.Lib
