import ComponentKinds.Json.Shape
import ComponentKinds.Schema.Basic
import ComponentKinds.Text.Position

/-!
# Faults of decoding

A schema is decoded from JSON in two stages: its name and attributes are read, and then
the attributes are added one after the other. A fault of the first stage says what was
found where; one of the second is the error of the attribute that cannot be added. In a
text the JSON itself may be malformed, which is a fault without further description.
-/

namespace ComponentKinds

/-- What a reader expects at its place. -/
inductive Expected where
  | schema
  | attribute
  | string
  | sequence
  | kindToken
  | stringOrMap
  | null
  deriving DecidableEq, Repr

/-- The description of what is expected. -/
def Expected.text : Expected → String
  | .schema => "struct DescriptorRepr"
  | .attribute => "struct OptionRepr"
  | .string => "a string"
  | .sequence => "a sequence"
  | .kindToken => "variant identifier"
  | .stringOrMap => "string or map"
  | .null => "unit"

/-- Why well-formed JSON is not what is decoded. -/
inductive DecodeFault where
  /-- Something else stands at the place of what is expected. -/
  | wrongShape (found : Json.Shape) (expected : Expected)
  /-- An object that stands for a kind has no member, or several. -/
  | notOneMember
  /-- A kind has another token than those of the kinds. -/
  | unknownToken (token : String)
  /-- A value fits no kind. -/
  | noKindFits
  /-- An object lacks a member. -/
  | missingMember (key : String)
  /-- A member of an object is repeated. -/
  | repeatedMember (key : String)
  /-- An array in place of a schema has fewer than two items. -/
  | shortSchema (length : Nat)
  /-- An array in place of an attribute has fewer than two items. -/
  | shortAttribute (length : Nat)
  /-- An array in place of a schema or attribute has more items than that has parts. -/
  | longArray (length : Nat)
  /-- What was read is not a schema. -/
  | rejected (error : Error)
  deriving DecidableEq, Repr

/-- The tokens of all kinds, as a list in words. -/
def tokenList : String :=
  ", ".intercalate (ValueKind.all.map fun k => "`" ++ k.token ++ "`")

/-- The text of a fault. A text that happens to end like a position in a source text, as
the error of a strangely named attribute may, loses that end. -/
def DecodeFault.message : DecodeFault → String
  | .wrongShape found expected =>
    "invalid type: " ++ found.text ++ ", expected " ++ expected.text
  | .notOneMember => "invalid value: map, expected map with a single key"
  | .unknownToken token => "unknown variant `" ++ token ++ "`, expected one of " ++ tokenList
  | .noKindFits => "data did not match any variant of untagged enum AttrValue"
  | .missingMember key => "missing field `" ++ key ++ "`"
  | .repeatedMember key => "duplicate field `" ++ key ++ "`"
  | .shortSchema length =>
    "invalid length " ++ toString length ++ ", expected struct DescriptorRepr with 2 elements"
  | .shortAttribute length =>
    "invalid length " ++ toString length ++ ", expected struct OptionRepr with 3 elements"
  | .longArray length =>
    "invalid length " ++ toString length ++ ", expected fewer elements in array"
  | .rejected error => Text.withoutPosition error.message

/-- Why a text is not what is decoded. -/
inductive TextFault where
  /-- The text is not JSON, or goes beyond the limits of its reader. -/
  | malformed
  /-- What was read of the text is JSON, but not what is decoded. -/
  | decode (fault : DecodeFault)
  deriving DecidableEq, Repr

namespace ValueKind

/-- The kind of a token, or the fault of a token that no kind has. -/
def ofToken (token : String) : Except DecodeFault ValueKind :=
  match ofToken? token with
  | some k => .ok k
  | none => .error (.unknownToken token)

end ValueKind

/-- The parts of an attribute that were read so far. -/
structure Attribute.Parts where
  /-- The name. -/
  name? : Option String := none
  /-- The kind. -/
  kind? : Option ValueKind := none
  /-- The default, which may have been read to be absent. -/
  default? : Option (Option Value) := none
  deriving DecidableEq, Repr

/-- The attribute of its parts; a default may be missing. -/
def Attribute.Parts.assemble (parts : Attribute.Parts) : Except DecodeFault Attribute :=
  match parts.name?, parts.kind? with
  | some name, some kind => .ok ⟨name, kind, parts.default?.getD none⟩
  | none, _ => .error (.missingMember "name")
  | _, none => .error (.missingMember "kind")

/-- The parts of a schema that were read so far. -/
structure Schema.Parts where
  /-- The name. -/
  name? : Option String := none
  /-- The attributes. -/
  options? : Option (List Attribute) := none
  deriving DecidableEq, Repr

/-- What a schema is built from: its name and its attributes, not yet checked. -/
abbrev Schema.Declaration := String × List Attribute

/-- The declaration of its parts. -/
def Schema.Parts.assemble (parts : Schema.Parts) : Except DecodeFault Schema.Declaration :=
  match parts.name?, parts.options? with
  | some name, some options => .ok (name, options)
  | none, _ => .error (.missingMember "name")
  | _, none => .error (.missingMember "options")

/-- The schema of a declaration, if every attribute can be added. -/
def Schema.ofDeclaration (declaration : Schema.Declaration) : Except DecodeFault Schema :=
  match Schema.build declaration.1 declaration.2 with
  | .ok schema => .ok schema
  | .error e => .error (.rejected e)

end ComponentKinds
