/-!
# Kinds of attribute values

An attribute holds a truth value, a 64-bit integer, a string, or a list of strings. Each
kind has the name that messages use, the key under which the kind's type is listed, and
the token that JSON text uses; names and tokens tell all kinds apart, type keys do not.
-/

namespace ComponentKinds

/-- The kind of an attribute value. -/
inductive ValueKind where
  | bool
  | int
  | string
  | strings
  deriving DecidableEq, Repr, Inhabited

namespace ValueKind

/-- All kinds, in the order in which untagged values are tried. -/
def all : List ValueKind := [.bool, .int, .string, .strings]

/-- Every kind is listed. -/
theorem mem_all (k : ValueKind) : k ∈ all := by cases k <;> simp [all]

/-- The name of the kind in messages. -/
def name : ValueKind → String
  | .bool => "bool"
  | .int => "int"
  | .string => "string"
  | .strings => "array<string>"

/-- The key of the type that carries the kind; integers carry truth values too. -/
def typeKey : ValueKind → String
  | .bool => "IntImm"
  | .int => "IntImm"
  | .string => "runtime.String"
  | .strings => "Array"

/-- The token of the kind in JSON text. -/
def token : ValueKind → String
  | .bool => "bool"
  | .int => "int"
  | .string => "string"
  | .strings => "string_array"

/-- The kind of a token. -/
def ofToken? (token : String) : Option ValueKind := all.find? fun k => k.token = token

/-- A token stands for its kind. -/
theorem ofToken?_token (k : ValueKind) : ofToken? k.token = some k := by cases k <;> decide

/-- Only the token of a kind stands for it. -/
theorem eq_token_of_ofToken? {text : String} {k : ValueKind} (h : ofToken? text = some k) :
    text = k.token := by
  have := List.find?_some h
  simpa [eq_comm] using this

/-- Lean values of each kind. -/
abbrev Carrier : ValueKind → Type
  | .bool => Bool
  | .int => Int64
  | .string => String
  | .strings => List String

instance : (k : ValueKind) → DecidableEq k.Carrier
  | .bool => inferInstanceAs (DecidableEq Bool)
  | .int => inferInstanceAs (DecidableEq Int64)
  | .string => inferInstanceAs (DecidableEq String)
  | .strings => inferInstanceAs (DecidableEq (List String))

end ValueKind

end ComponentKinds
