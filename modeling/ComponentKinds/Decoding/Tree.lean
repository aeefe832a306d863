import ComponentKinds.Decoding.Fault

/-!
# Decoding from trees

Kinds, attributes and schemas are decoded from JSON trees. Attributes and schemas have two
forms: an object whose members are visited in order, those with other keys than the parts
being ignored, and an array of the parts by position. The first fault counts.
-/

namespace ComponentKinds

namespace Json

/-- A tree as a string. -/
def decodeString : Json → Except DecodeFault String
  | .str s => .ok s
  | other => .error (.wrongShape other.shape .string)

/-- The kind of a tree: its token, or an object of one member with that key and null. -/
def decodeKind : Json → Except DecodeFault ValueKind
  | .str token => ValueKind.ofToken token
  | .obj [(token, payload)] => do
    let k ← ValueKind.ofToken token
    match payload with
    | .null => return k
    | other => throw (.wrongShape other.shape .null)
  | .obj _ => .error .notOneMember
  | other => .error (.wrongShape other.shape .stringOrMap)

/-- The default of a tree; null is none. -/
def decodeDefault : Json → Except DecodeFault (Option Value)
  | .null => .ok none
  | other =>
    match Value.untagged? other with
    | some value => .ok (some value)
    | none => .error .noKindFits

/-- The parts of an attribute from the members of an object. -/
def attributeParts (parts : Attribute.Parts) :
    List (String × Json) → Except DecodeFault Attribute.Parts
  | [] => .ok parts
  | (key, value) :: rest =>
    if key = "name" then do
      let name ← value.decodeString
      attributeParts { parts with name? := some name } rest
    else if key = "kind" then do
      let kind ← value.decodeKind
      attributeParts { parts with kind? := some kind } rest
    else if key = "default" then do
      let fallback ← value.decodeDefault
      attributeParts { parts with default? := some fallback } rest
    else attributeParts parts rest

/-- The attribute of an array: name, kind and, if there is a third item, the default. -/
def attributeOfItems : List Json → Except DecodeFault Attribute
  | [] => .error (.shortAttribute 0)
  | first :: rest => do
    let name ← first.decodeString
    match rest with
    | [] => throw (.shortAttribute 1)
    | second :: rest =>
      let kind ← second.decodeKind
      match rest with
      | [] => return ⟨name, kind, none⟩
      | third :: rest =>
        let fallback ← third.decodeDefault
        if rest.isEmpty then return ⟨name, kind, fallback⟩
        else throw (.longArray (rest.length + 3))

/-- The attribute of a tree. -/
def decodeAttribute : Json → Except DecodeFault Attribute
  | .obj members => do (← attributeParts {} members).assemble
  | .arr items => attributeOfItems items
  | other => .error (.wrongShape other.shape .attribute)

/-- The attributes of the items of an array, in order. -/
def attributeItems : List Json → Except DecodeFault (List Attribute)
  | [] => .ok []
  | head :: tail => do
    let a ← head.decodeAttribute
    let rest ← attributeItems tail
    return a :: rest

/-- The attributes of a tree. -/
def decodeAttributes : Json → Except DecodeFault (List Attribute)
  | .arr items => attributeItems items
  | other => .error (.wrongShape other.shape .sequence)

/-- The parts of a schema from the members of an object. -/
def schemaParts (parts : Schema.Parts) :
    List (String × Json) → Except DecodeFault Schema.Parts
  | [] => .ok parts
  | (key, value) :: rest =>
    if key = "name" then do
      let name ← value.decodeString
      schemaParts { parts with name? := some name } rest
    else if key = "options" then do
      let options ← value.decodeAttributes
      schemaParts { parts with options? := some options } rest
    else schemaParts parts rest

/-- The declaration of an array: its name and its attributes. -/
def declarationOfItems : List Json → Except DecodeFault Schema.Declaration
  | [] => .error (.shortSchema 0)
  | first :: rest => do
    let name ← first.decodeString
    match rest with
    | [] => throw (.shortSchema 1)
    | second :: rest =>
      let options ← second.decodeAttributes
      if rest.isEmpty then return (name, options)
      else throw (.longArray (rest.length + 2))

/-- The declaration of a tree, before any attribute is checked. -/
def decodeDeclaration : Json → Except DecodeFault Schema.Declaration
  | .obj members => do (← schemaParts {} members).assemble
  | .arr items => declarationOfItems items
  | other => .error (.wrongShape other.shape .schema)

/-- The schema of a tree. -/
def decodeSchema (j : Json) : Except DecodeFault Schema := do
  Schema.ofDeclaration (← j.decodeDeclaration)

end Json

/-- The kind of a tree. -/
def ValueKind.ofJson (j : Json) : Except DecodeFault ValueKind := j.decodeKind

/-- The schema of a tree. -/
def Schema.ofJson (j : Json) : Except DecodeFault Schema := j.decodeSchema

end ComponentKinds
