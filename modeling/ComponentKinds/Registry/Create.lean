import ComponentKinds.Component
import ComponentKinds.Registry.Basic

/-!
# Creating components

A configuration is checked against the schema of the kind by the order of its names, and
the first name that is not declared or has a value of the wrong kind is the error. Then
the defaults of the attributes that are left out are filled in.
-/

namespace ComponentKinds

namespace Schema

/-- Check values against the declared attributes, one after the other. -/
def check (s : Schema) : List (String × Value) → Except Error Unit
  | [] => .ok ()
  | (name, value) :: rest =>
    match s.attribute? name with
    | none => .error (.schema s.name (.unknownAttribute name))
    | some a =>
      if value.kind = a.kind then s.check rest
      else .error (.wrongKind name a.kind value.kind)

/-- Set the default of each attribute that has one and is still without value. -/
def fill (config : Config) : List Attribute → Config
  | [] => config
  | a :: rest =>
    match a.default? with
    | some value =>
      fill (if config.contains a.name then config else config.insert a.name value) rest
    | none => fill config rest

end Schema

namespace Registry

/-- Create a component of a kind. -/
def create (r : Registry) (kind : String) (config : Config) : Except Error Component := do
  let schema ← r.lookup kind
  schema.check config.entries
  return { family := r.family, kind, attributes := Schema.fill config schema.attributes }

/-- Create a component from a JSON object; the kind is looked up before the object is read. -/
def createFromJson (r : Registry) (kind : String) (j : Json) : Except Error Component := do
  let _ ← r.lookup kind
  match Config.ofJson j with
  | .ok config => r.create kind config
  | .error fault => throw (.invalidConfig (.config fault))

end Registry

end ComponentKinds
