import ComponentKinds.Error
import ComponentKinds.Text.Plain

/-!
# Components

A component is an instance of a declared kind: it has the values that it was created with
and the defaults of its kind. An attribute with neither is undefined.
-/

namespace ComponentKinds

/-- A component. -/
structure Component where
  /-- The family of its kind. -/
  family : String
  /-- The kind. -/
  kind : String
  /-- The values of its defined attributes. -/
  attributes : Config
  deriving DecidableEq

namespace Component

/-- The value of an attribute, if it is defined. -/
def value? (c : Component) (name : String) : Option Value := c.attributes.get? name

/-- Whether an attribute has a value. -/
def isDefined (c : Component) (name : String) : Bool := (c.value? name).isSome

/-- The value of an attribute as a Lean value of a kind; an undefined attribute has none,
and a value of another kind is an error. -/
def get (c : Component) (k : ValueKind) (name : String) : Except Error (Option k.Carrier) :=
  match c.value? name with
  | none => .ok none
  | some value =>
    match value.read? k with
    | some x => .ok (some x)
    | none => .error (.wrongKind name k value.kind)

/-- The value of an attribute as a Lean value of a kind, or a fallback if it is undefined. -/
def getOr (c : Component) (k : ValueKind) (name : String) (fallback : k.Carrier) :
    Except Error k.Carrier := do
  return (← c.get k name).getD fallback

/-- An attribute with its value in text. -/
def entryChars (entry : String × Value) : List Char :=
  entry.1.toList ++ '=' :: entry.2.chars

/-- The text of a component: its kind, and in braces its attributes by name. -/
def chars (c : Component) : List Char :=
  c.kind.toList ++ '{' :: Text.listed entryChars c.attributes.entries ++ ['}']

/-- The text of a component, as a string. -/
def text (c : Component) : String := String.ofList c.chars

end Component

end ComponentKinds
