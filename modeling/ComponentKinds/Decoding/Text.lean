import ComponentKinds.Decoding.Fault

/-!
# Decoding from text

Kinds, values and schemas are decoded from JSON text in one pass from left to right: the
first fault counts, whether the text breaks off there or means something else. What a
reader ignores need only be JSON in its grammar. Once the value is read and accepted, only
blanks may follow it.

The forms are those of trees, with three differences. A repeated member of an object is a
fault as soon as its key is read; a surplus item of an array is malformed text; and so is
all but one member in the object form of a kind.
-/

namespace ComponentKinds

open Json (Outline)

namespace Json.Outline

/-- The fault of an outline that is not what is expected: of the text, if it breaks off,
or else of what stands there. -/
def unexpected (o : Outline) (expected : Expected) : TextFault :=
  match o.shape? with
  | some found => .decode (.wrongShape found expected)
  | none => .malformed

/-- An outline as a string. -/
def decodeString : Outline → Except TextFault String
  | .string pieces =>
    match Piece.string? pieces with
    | some s => .ok s
    | none => .error .malformed
  | other => .error (other.unexpected .string)

/-- An outline as the token of a kind; `expected` describes it. -/
def decodeToken (o : Outline) : Except TextFault ValueKind := do
  match ValueKind.ofToken (← o.decodeString) with
  | .ok k => return k
  | .error fault => throw (.decode fault)

/-- The kind of the members of an object: the only one has the token as its key and null
as its value. -/
def decodeKindMember : Outline.Members → Except TextFault ValueKind
  | .member (.string pieces) value tail => do
    let k ← decodeToken (.string pieces)
    match value, tail with
    | .null, .closed => return k
    | .null, _ => throw .malformed
    | other, _ => throw (other.unexpected .null)
  | .member key _ _ => .error (key.unexpected .kindToken)
  | _ => .error .malformed

/-- The kind of an outline: its token, or an object of one member with that key and null. -/
def decodeKind : Outline → Except TextFault ValueKind
  | .string pieces => decodeToken (.string pieces)
  | .object members => decodeKindMember members
  | _ => .error .malformed

/-- The attribute value of an outline whose arrays and objects nest no deeper than `depth`. -/
def decodeValue (depth : Nat) (o : Outline) : Except TextFault Value :=
  match o.json? depth with
  | none => .error .malformed
  | some j =>
    match Value.untagged? j with
    | some value => .ok value
    | none => .error (.decode .noKindFits)

/-- How deep the default of an attribute may nest: it stands within the schema, the list
of its attributes and its attribute. -/
def defaultDepth : Nat := maxDepth - 3

/-- The default of an outline; null is none. -/
def decodeDefault : Outline → Except TextFault (Option Value)
  | .null => .ok none
  | other => some <$> other.decodeValue defaultDepth

/-- A fault of the tree, as one of the text. -/
def lift {α : Type} : Except DecodeFault α → Except TextFault α
  | .ok x => .ok x
  | .error fault => .error (.decode fault)

/-- The parts of an attribute from the members of an object. -/
def attributeParts (parts : Attribute.Parts) : Outline.Members → Except TextFault Attribute.Parts
  | .closed => .ok parts
  | .broken => .error .malformed
  | .member key value tail =>
    match key.key? with
    | none => .error .malformed
    | some key =>
      if key = "name" then
        if parts.name?.isSome then .error (.decode (.repeatedMember key))
        else do
          let name ← value.decodeString
          attributeParts { parts with name? := some name } tail
      else if key = "kind" then
        if parts.kind?.isSome then .error (.decode (.repeatedMember key))
        else do
          let kind ← value.decodeKind
          attributeParts { parts with kind? := some kind } tail
      else if key = "default" then
        if parts.default?.isSome then .error (.decode (.repeatedMember key))
        else do
          let fallback ← value.decodeDefault
          attributeParts { parts with default? := some fallback } tail
      else attributeParts parts tail

/-- The attribute of an array: name, kind and, if there is a third item, the default. -/
def attributeOfItems : Outline.Items → Except TextFault Attribute
  | .closed => .error (.decode (.shortAttribute 0))
  | .broken => .error .malformed
  | .item first tail => do
    let name ← first.decodeString
    match tail with
    | .closed => throw (.decode (.shortAttribute 1))
    | .broken => throw .malformed
    | .item second tail =>
      let kind ← second.decodeKind
      match tail with
      | .closed => return ⟨name, kind, none⟩
      | .broken => throw .malformed
      | .item third tail =>
        let fallback ← third.decodeDefault
        match tail with
        | .closed => return ⟨name, kind, fallback⟩
        | _ => throw .malformed

/-- The attribute of an outline. -/
def decodeAttribute : Outline → Except TextFault Attribute
  | .object members => do lift (← attributeParts {} members).assemble
  | .array items => attributeOfItems items
  | other => .error (other.unexpected .attribute)

/-- The attributes of the items of an array, in order. -/
def attributeItems : Outline.Items → Except TextFault (List Attribute)
  | .closed => .ok []
  | .broken => .error .malformed
  | .item head tail => do
    let a ← head.decodeAttribute
    let rest ← attributeItems tail
    return a :: rest

/-- The attributes of an outline. -/
def decodeAttributes : Outline → Except TextFault (List Attribute)
  | .array items => attributeItems items
  | other => .error (other.unexpected .sequence)

/-- The parts of a schema from the members of an object. -/
def schemaParts (parts : Schema.Parts) : Outline.Members → Except TextFault Schema.Parts
  | .closed => .ok parts
  | .broken => .error .malformed
  | .member key value tail =>
    match key.key? with
    | none => .error .malformed
    | some key =>
      if key = "name" then
        if parts.name?.isSome then .error (.decode (.repeatedMember key))
        else do
          let name ← value.decodeString
          schemaParts { parts with name? := some name } tail
      else if key = "options" then
        if parts.options?.isSome then .error (.decode (.repeatedMember key))
        else do
          let options ← value.decodeAttributes
          schemaParts { parts with options? := some options } tail
      else schemaParts parts tail

/-- The declaration of an array: its name and its attributes. -/
def declarationOfItems : Outline.Items → Except TextFault Schema.Declaration
  | .closed => .error (.decode (.shortSchema 0))
  | .broken => .error .malformed
  | .item first tail => do
    let name ← first.decodeString
    match tail with
    | .closed => throw (.decode (.shortSchema 1))
    | .broken => throw .malformed
    | .item second tail =>
      let options ← second.decodeAttributes
      match tail with
      | .closed => return (name, options)
      | _ => throw .malformed

/-- The declaration of an outline, before any attribute is checked. -/
def decodeDeclaration : Outline → Except TextFault Schema.Declaration
  | .object members => do lift (← schemaParts {} members).assemble
  | .array items => declarationOfItems items
  | other => .error (other.unexpected .schema)

/-- The schema of an outline. -/
def decodeSchema (o : Outline) : Except TextFault Schema := do
  lift (Schema.ofDeclaration (← o.decodeDeclaration))

end Json.Outline

/-- Decode the value at the front of a text, which must end there but for blanks. -/
def Json.Draft.decode {α : Type} (draft : Json.Draft) (read : Outline → Except TextFault α) :
    Except TextFault α := do
  let result ← read draft.outline
  if draft.ended then return result else throw .malformed

/-- The kind of a text. -/
def ValueKind.ofText (text : String) : Except TextFault ValueKind :=
  (Json.Draft.ofChars text.toList).decode Outline.decodeKind

/-- The attribute value of a text. -/
def Value.ofText (text : String) : Except TextFault Value :=
  (Json.Draft.ofChars text.toList).decode (Outline.decodeValue Json.maxDepth)

/-- The schema of a text. -/
def Schema.ofText (text : String) : Except TextFault Schema :=
  (Json.Draft.ofChars text.toList).decode Outline.decodeSchema

end ComponentKinds
