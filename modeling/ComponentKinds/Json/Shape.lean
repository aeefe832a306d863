import ComponentKinds.Binary64.Shortest
import ComponentKinds.Json.Outline
import ComponentKinds.Text.Plain
import ComponentKinds.Text.Quoted

/-!
# What a reader finds

A reader that expects one form and finds another says what it found: a leaf with its
value, or the mere fact that an array or an object stands there.
-/

namespace ComponentKinds.Json

/-- What stands where something else was expected. -/
inductive Shape where
  | null
  | bool (value : Bool)
  | number (value : Number)
  | string (text : String)
  | sequence
  | map
  deriving DecidableEq, Repr

/-- The description of what was found. -/
def Shape.text : Shape → String
  | .null => "null"
  | .bool true => "boolean `true`"
  | .bool false => "boolean `false`"
  | .number (.int value) => "integer `" ++ String.ofList (Text.decimal value) ++ "`"
  | .number (.float value) => "floating point `" ++ String.ofList value.chars ++ "`"
  | .string text => "string " ++ Text.quote text
  | .sequence => "sequence"
  | .map => "map"

/-- The shape of a tree. -/
def shape : Json → Shape
  | .null => .null
  | .bool value => .bool value
  | .num number => .number number
  | .str text => .string text
  | .arr _ => .sequence
  | .obj _ => .map

/-- The shape of an outline, if the text does not break off at its front: a leaf must be
readable, an array or object need only be open. -/
def Outline.shape? : Outline → Option Shape
  | .broken => none
  | .null => some .null
  | .bool value => some (.bool value)
  | .number numeral => numeral.number?.map .number
  | .string pieces => (Piece.string? pieces).map .string
  | .array _ => some .sequence
  | .object _ => some .map

end ComponentKinds.Json
