import ComponentKinds.Value.Json

/-!
# Configurations

A configuration gives values to attributes by name. It is read from a JSON object whose
members are all attribute values, and written as such an object.
-/

namespace ComponentKinds

/-- Attribute values by name. -/
abbrev Config := Keyed Value

namespace Config

/-- Why a tree is no configuration. -/
inductive Fault where
  /-- The tree is no object. -/
  | notObject (found : Json)
  /-- A member of the object is no attribute value. -/
  | member (name : String) (fault : Value.Fault)
  deriving DecidableEq, Repr

/-- The text of a fault. -/
def Fault.message : Fault → String
  | .notObject found => "expected a JSON object, got " ++ found.render
  | .member name fault => "attribute " ++ name ++ ": " ++ fault.message

/-- The members of an object as attribute values, or the fault of the first that is none. -/
def memberValues : List (String × Json) → Except Fault (List (String × Value))
  | [] => .ok []
  | (name, j) :: rest =>
    match Value.ofJson j with
    | .ok value => (memberValues rest).map ((name, value) :: ·)
    | .error fault => .error (.member name fault)

/-- The configuration of a tree. -/
def ofJson : Json → Except Fault Config
  | .obj members => (memberValues members).map Keyed.ofList
  | other => .error (.notObject other)

/-- The JSON object of a configuration. -/
def toJson (config : Config) : Json :=
  .obj (config.entries.map fun entry => (entry.1, entry.2.toJson))

end Config

end ComponentKinds
