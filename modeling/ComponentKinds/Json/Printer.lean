import ComponentKinds.Binary64.Shortest
import ComponentKinds.Json.Basic
import ComponentKinds.Text.Plain

/-!
# JSON text

Compact text of a tree: no blanks, members in the order of their list. A string shows
every character as it is, except that the quote and the backslash follow a backslash and
the control characters below U+0020 have a short escape or their code in four digits.
-/

namespace ComponentKinds.Json

/-- The code of a control character in four hexadecimal digits. -/
def codeEscape (code : Nat) : List Char :=
  '\\' :: 'u' :: '0' :: '0' :: Nat.digitChar (code / 16) :: Nat.digitChar (code % 16) :: []

/-- The form of one character in a JSON string. -/
def escapeChar (c : Char) : List Char :=
  match c with
  | '"' => ['\\', '"']
  | '\\' => ['\\', '\\']
  | '\x08' => ['\\', 'b']
  | '\x0c' => ['\\', 'f']
  | '\n' => ['\\', 'n']
  | '\r' => ['\\', 'r']
  | '\t' => ['\\', 't']
  | c => if c.toNat < 0x20 then codeEscape c.toNat else [c]

/-- A string as JSON text. -/
def stringChars (text : String) : List Char := '"' :: text.toList.flatMap escapeChar ++ ['"']

/-- A number as JSON text. -/
def Number.chars : Number → List Char
  | .int value => Text.decimal value
  | .float value => value.chars

mutual

/-- A tree as JSON text. -/
def chars : Json → List Char
  | .null => ['n', 'u', 'l', 'l']
  | .bool value => Text.truth value
  | .num number => number.chars
  | .str text => stringChars text
  | .arr [] => ['[', ']']
  | .arr (item :: rest) => '[' :: item.chars ++ itemChars rest
  | .obj [] => ['{', '}']
  | .obj ((key, value) :: rest) => '{' :: stringChars key ++ ':' :: value.chars ++ memberChars rest

/-- The items after the first, each behind a comma, and the end of the array. -/
def itemChars : List Json → List Char
  | [] => [']']
  | item :: rest => ',' :: item.chars ++ itemChars rest

/-- The members after the first, each behind a comma, and the end of the object. -/
def memberChars : List (String × Json) → List Char
  | [] => ['}']
  | (key, value) :: rest => ',' :: stringChars key ++ ':' :: value.chars ++ memberChars rest

end

/-- The compact JSON text of a tree. -/
def render (j : Json) : String := String.ofList j.chars

end ComponentKinds.Json
