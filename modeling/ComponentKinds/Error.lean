import ComponentKinds.Config

/-!
# Errors

What can go wrong when kinds are declared, components are created and attributes are
read. An error names its cause; the wording is given by one function. A cause that is
known as text alone is also an error, so that a registrar can report its own.
-/

namespace ComponentKinds

/-- How the schema of a kind is violated. -/
inductive SchemaFault where
  /-- A configuration names an attribute that the kind does not declare. -/
  | unknownAttribute (name : String)
  /-- A kind would declare an attribute twice. -/
  | duplicateAttribute (name : String)
  /-- A default is not of the kind of its attribute. -/
  | wrongDefault (name : String) (expected actual : ValueKind)
  /-- A violation that is described in words. -/
  | other (message : String)
  deriving DecidableEq, Repr

/-- The text of a violation. -/
def SchemaFault.message : SchemaFault → String
  | .unknownAttribute name => "unknown attribute " ++ name
  | .duplicateAttribute name => "duplicate attribute " ++ name
  | .wrongDefault name expected actual =>
    "default for attribute " ++ name ++ " expected " ++ expected.name ++ ", got " ++ actual.name
  | .other message => message

/-- Why JSON is not accepted as configuration. -/
inductive ConfigFault where
  /-- The tree of a single value is none. -/
  | value (fault : Value.Fault)
  /-- The tree of a configuration is none. -/
  | config (fault : Config.Fault)
  /-- A reason that is described in words. -/
  | other (message : String)
  deriving DecidableEq, Repr

/-- The text of a reason. -/
def ConfigFault.message : ConfigFault → String
  | .value fault => fault.message
  | .config fault => fault.message
  | .other message => message

/-- An error of a registry, a family of kinds or a component. -/
inductive Error where
  /-- The kind is not declared in the family. -/
  | unknownKind (family kind : String)
  /-- The schema of the kind is violated. -/
  | schema (kind : String) (fault : SchemaFault)
  /-- An attribute has a value of another kind than is declared or asked for. -/
  | wrongKind (name : String) (expected actual : ValueKind)
  /-- JSON is not accepted as configuration. -/
  | invalidConfig (fault : ConfigFault)
  /-- The registry of the family is already installed. -/
  | alreadyInitialized (family : String)
  /-- The registry of the family is not installed yet. -/
  | notInitialized (family : String)
  deriving DecidableEq, Repr

/-- The text of an error. -/
def Error.message : Error → String
  | .unknownKind family kind => "unknown " ++ family ++ ": " ++ kind
  | .schema kind fault => "schema error in " ++ kind ++ ": " ++ fault.message
  | .wrongKind name expected actual =>
    "attribute " ++ name ++ " expected " ++ expected.name ++ ", got " ++ actual.name
  | .invalidConfig fault => "invalid config: " ++ fault.message
  | .alreadyInitialized family => family ++ " registry already initialized"
  | .notInitialized family => family ++ " registry not initialized"

end ComponentKinds
