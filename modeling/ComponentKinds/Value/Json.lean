import ComponentKinds.Json.Printer
import ComponentKinds.Value.Basic

/-!
# Attribute values as JSON

A value is written without its kind, which its form shows. It is read back in two ways:
by one look at the tree, which says what is wrong with anything else, and by trying the
kinds one after the other, which only says that none of them fits.
-/

namespace ComponentKinds

namespace Value

/-- The JSON form of a value, which does not name its kind. -/
def toJson : Value → Json
  | .bool b => .bool b
  | .int i => .num (.int i.toInt)
  | .string s => .str s
  | .strings items => .arr (items.map .str)

/-- Why a tree is no attribute value. -/
inductive Fault where
  /-- A number is not whole or does not fit 64 bits. -/
  | notInt64 (number : Json.Number)
  /-- Null is no value. -/
  | null
  /-- An object is no value. -/
  | object
  /-- The first item of an array that is not a string. -/
  | item (other : Json)
  deriving DecidableEq, Repr

/-- The text of a fault. -/
def Fault.message : Fault → String
  | .notInt64 number =>
    "number " ++ String.ofList number.chars ++ " is not a 64-bit integer"
  | .null => "null is not an attribute value"
  | .object => "nested objects are not attribute values"
  | .item other => "array element " ++ other.render ++ " is not a string"

/-- The 64-bit integer with the value, if there is one. -/
def int64? (value : Int) : Option Int64 :=
  if Int64.minValue.toInt ≤ value ∧ value ≤ Int64.maxValue.toInt then some (Int64.ofInt value)
  else none

/-- All items as strings, or the first item that is none. -/
def stringItems : List Json → Except Fault (List String)
  | [] => .ok []
  | .str s :: rest => (stringItems rest).map (s :: ·)
  | other :: _ => .error (.item other)

/-- The attribute value of a tree. -/
def ofJson : Json → Except Fault Value
  | .bool b => .ok (.bool b)
  | .num (.int value) =>
    match int64? value with
    | some i => .ok (.int i)
    | none => .error (.notInt64 (.int value))
  | .num number => .error (.notInt64 number)
  | .str s => .ok (.string s)
  | .arr items => (stringItems items).map .strings
  | .null => .error .null
  | .obj _ => .error .object

/-- A tree as a string. -/
def jsonString? : Json → Option String
  | .str s => some s
  | _ => none

/-- A tree as a Lean value of one kind. -/
def decodeAs? : (k : ValueKind) → Json → Option k.Carrier
  | .bool, .bool b => some b
  | .int, .num (.int value) => int64? value
  | .string, .str s => some s
  | .strings, .arr items => items.mapM jsonString?
  | _, _ => none

/-- The attribute value of the first kind that fits the tree. -/
def untagged? (j : Json) : Option Value :=
  ValueKind.all.findSome? fun k => (decodeAs? k j).map (of k)

end Value

end ComponentKinds
