import ComponentKinds.Text.Plain
import ComponentKinds.Text.Quoted
import ComponentKinds.Value.Kind

/-!
# Attribute values

A value is one of four kinds, and reading it as a kind succeeds exactly for its own. The
text of a value shows strings quoted, so that values of different kinds, and different
lists of strings, have different texts.
-/

namespace ComponentKinds

/-- The value of an attribute. -/
inductive Value where
  | bool (b : Bool)
  | int (i : Int64)
  | string (s : String)
  | strings (items : List String)
  deriving DecidableEq, Repr

namespace Value

/-- The kind of a value. -/
def kind : Value → ValueKind
  | .bool _ => .bool
  | .int _ => .int
  | .string _ => .string
  | .strings _ => .strings

/-- The truth value, of a value that is one. -/
def bool? : Value → Option Bool
  | .bool b => some b
  | _ => none

/-- The integer, of a value that is one. -/
def int? : Value → Option Int64
  | .int i => some i
  | _ => none

/-- The string, of a value that is one. -/
def string? : Value → Option String
  | .string s => some s
  | _ => none

/-- The list of strings, of a value that is one. -/
def strings? : Value → Option (List String)
  | .strings items => some items
  | _ => none

/-- The value that holds a Lean value of a kind. -/
def of : (k : ValueKind) → k.Carrier → Value
  | .bool => .bool
  | .int => .int
  | .string => .string
  | .strings => .strings

/-- The Lean value that a value of the kind holds. -/
def read? : (k : ValueKind) → Value → Option k.Carrier
  | .bool => bool?
  | .int => int?
  | .string => string?
  | .strings => strings?

@[simp] theorem kind_of (k : ValueKind) (x : k.Carrier) : (of k x).kind = k := by
  cases k <;> rfl

/-- Reading as a kind gives a Lean value exactly if the value holds it. -/
theorem read?_eq_some_iff {k : ValueKind} {v : Value} {x : k.Carrier} :
    v.read? k = some x ↔ v = of k x := by
  cases k <;> cases v <;> simp [read?, of, bool?, int?, string?, strings?]

/-- Reading as a kind succeeds exactly for values of that kind. -/
theorem read?_isSome_iff {k : ValueKind} {v : Value} : (v.read? k).isSome ↔ v.kind = k := by
  cases k <;> cases v <;> simp [read?, kind, bool?, int?, string?, strings?]

/-- The text of a value. -/
def chars : Value → List Char
  | .bool b => Text.truth b
  | .int i => Text.decimal i.toInt
  | .string s => Text.quoted s.toList
  | .strings items => '[' :: Text.listed (fun item => Text.quoted item.toList) items ++ [']']

/-- The text of a value, as a string. -/
def text (v : Value) : String := String.ofList v.chars

end Value

/-- Lean types whose values are attribute values. -/
class ToValue (α : Type) where
  /-- The attribute value of a Lean value. -/
  toValue : α → Value

export ToValue (toValue)

instance : ToValue Bool := ⟨.bool⟩
instance : ToValue Int64 := ⟨.int⟩
instance : ToValue Int32 := ⟨fun i => .int i.toInt64⟩
instance : ToValue String := ⟨.string⟩
instance : ToValue (List String) := ⟨.strings⟩

end ComponentKinds
