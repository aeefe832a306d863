import ComponentKinds.Schema.Basic

/-!
# Registries

A registry holds the schemas of the kinds of one family in the order in which the kinds
were first declared, and for each name the position of its schema. Declaring a kind again
reopens it: attributes that follow are added to the schema that is already there.
-/

namespace ComponentKinds

/-- The declared kinds of a family. -/
structure Registry where
  /-- What the kinds are kinds of. -/
  family : String
  /-- The schemas, by first declaration. -/
  schemas : Array Schema := #[]
  /-- The position of the schema of each kind. -/
  slots : Keyed Nat := .empty
  deriving DecidableEq

namespace Registry

/-- The schema of a kind. -/
def schema? (r : Registry) (kind : String) : Option Schema := do
  r.schemas[← r.slots.get? kind]?

/-- The schema of a kind, or the error that the kind is not declared. -/
def lookup (r : Registry) (kind : String) : Except Error Schema :=
  match r.schema? kind with
  | some schema => .ok schema
  | none => .error (.unknownKind r.family kind)

/-- Whether a kind is declared. -/
def contains (r : Registry) (kind : String) : Bool := r.slots.contains kind

/-- The number of kinds. -/
def size (r : Registry) : Nat := r.schemas.size

/-- Whether no kind is declared. -/
def isEmpty (r : Registry) : Bool := r.schemas.isEmpty

/-- The kinds, by first declaration. -/
def kinds (r : Registry) : List String := r.schemas.toList.map (·.name)

/-- The attributes of a kind with the keys of their types, in the order of declaration. -/
def options (r : Registry) (kind : String) : Except Error (List (String × String)) := do
  return (← r.lookup kind).attributes.map fun a => (a.name, a.kind.typeKey)

/-- Declare a kind without attributes, unless it is declared already. -/
def declare (r : Registry) (kind : String) : Registry :=
  if r.slots.contains kind then r
  else { r with
    schemas := r.schemas.push { name := kind }
    slots := r.slots.insert kind r.schemas.size }

/-- Add an attribute to a declared kind. -/
def addAttribute (r : Registry) (kind : String) (a : Attribute) : Except Error Registry := do
  match r.slots.get? kind with
  | none => throw (.unknownKind r.family kind)
  | some slot =>
    match r.schemas[slot]? with
    | none => throw (.unknownKind r.family kind)
    | some schema => return { r with schemas := r.schemas.setIfInBounds slot (← schema.add a) }

end Registry

/-- A block of a registration script: a kind and the attributes to add to it. -/
structure Block where
  /-- The kind that the block declares or reopens. -/
  kind : String
  /-- The attributes, in the order in which they are added. -/
  attributes : List Attribute := []
  deriving DecidableEq, Repr

/-- What a registration leaves behind: the registry as far as it went, and its error. -/
structure Outcome where
  /-- The registry with everything from before the error. -/
  registry : Registry
  /-- The error that ended the registration, if any. -/
  error? : Option Error := none
  deriving DecidableEq

namespace Registry

/-- Add attributes to a declared kind, up to the first that cannot be added. -/
def addAttributes (r : Registry) (kind : String) : List Attribute → Outcome
  | [] => { registry := r }
  | a :: rest =>
    match r.addAttribute kind a with
    | .ok r => r.addAttributes kind rest
    | .error e => { registry := r, error? := some e }

/-- Declare or reopen the kind of a block and add its attributes, up to the first that
cannot be added. What was added before stays. -/
def register (r : Registry) (block : Block) : Outcome :=
  (r.declare block.kind).addAttributes block.kind block.attributes

/-- Run the blocks of a script in order, up to the first error. -/
def registerAll (r : Registry) : List Block → Outcome
  | [] => { registry := r }
  | block :: rest =>
    let outcome := r.register block
    match outcome.error? with
    | none => outcome.registry.registerAll rest
    | some _ => outcome

end Registry

end ComponentKinds
