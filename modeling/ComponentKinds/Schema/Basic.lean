import ComponentKinds.Error

/-!
# Schemas

The schema of a kind lists its attributes in the order of their declaration. An attribute
is accepted if its name is new and its default, if it has one, is of its own kind; a name
that is taken is reported before a default that does not fit. So every schema that is
built from the empty one by accepted attributes has distinct names and fitting defaults.
-/

namespace ComponentKinds

/-- An attribute of a kind. -/
structure Attribute where
  /-- The name, unique within the kind. -/
  name : String
  /-- The kind of all its values. -/
  kind : ValueKind
  /-- The value of components that are created without one. -/
  default? : Option Value := none
  deriving DecidableEq, Repr

namespace Attribute

/-- An attribute whose default is given as a Lean value of its kind. -/
def withDefault (name : String) (k : ValueKind) (default : k.Carrier) : Attribute :=
  ⟨name, k, some (Value.of k default)⟩

/-- A default is absent or of the kind of the attribute. -/
def DefaultFits (a : Attribute) : Prop := ∀ v ∈ a.default?, v.kind = a.kind

instance (a : Attribute) : Decidable a.DefaultFits :=
  inferInstanceAs (Decidable (∀ v ∈ a.default?, v.kind = a.kind))

/-- A default given as a Lean value of the kind always fits. -/
theorem defaultFits_withDefault (name : String) (k : ValueKind) (default : k.Carrier) :
    (withDefault name k default).DefaultFits := by
  simp [DefaultFits, withDefault]

end Attribute

/-- The schema of a kind. -/
structure Schema where
  /-- The name of the kind. -/
  name : String
  /-- The attributes, in the order of their declaration. -/
  attributes : List Attribute := []
  deriving DecidableEq, Repr, Inhabited

namespace Schema

/-- The attribute with a name. -/
def attribute? (s : Schema) (name : String) : Option Attribute :=
  s.attributes.find? fun a => a.name = name

/-- Why an attribute cannot be added, if it cannot. -/
def fault? (s : Schema) (a : Attribute) : Option SchemaFault :=
  if (s.attribute? a.name).isSome then some (.duplicateAttribute a.name)
  else match a.default? with
    | some value =>
      if value.kind = a.kind then none else some (.wrongDefault a.name a.kind value.kind)
    | none => none

/-- Add an attribute at the end. -/
def add (s : Schema) (a : Attribute) : Except Error Schema :=
  match s.fault? a with
  | some fault => .error (.schema s.name fault)
  | none => .ok { s with attributes := s.attributes ++ [a] }

/-- Add attributes one after the other, up to the first that cannot be added. -/
def addAll (s : Schema) : List Attribute → Except Error Schema
  | [] => .ok s
  | a :: rest =>
    match s.add a with
    | .ok s => s.addAll rest
    | .error e => .error e

/-- The schema of a kind with the given attributes. -/
def build (name : String) (attributes : List Attribute) : Except Error Schema :=
  addAll { name } attributes

/-- The JSON form of an attribute; the default is left out if there is none. -/
def attributeJson (a : Attribute) : Json :=
  .obj (("name", .str a.name) :: ("kind", .str a.kind.token) ::
    (a.default?.map fun v => ("default", v.toJson)).toList)

/-- The JSON form of a schema: its name, then its attributes as options. -/
def toJson (s : Schema) : Json :=
  .obj [("name", .str s.name), ("options", .arr (s.attributes.map attributeJson))]

end Schema

end ComponentKinds
