import ComponentKinds.Text.Unprintable

/-!
# Quoted text

Strings are shown between double quotes. A quote, a backslash and the four most common
control characters have escapes of two characters; every other unprintable character is
written by its hexadecimal code point, and all else stands for itself. Each character is
written on its own, whatever its neighbours are.
-/

namespace ComponentKinds.Text

/-- The form of one character between quotes. -/
def quoteChar (c : Char) : List Char :=
  match c with
  | '\x00' => ['\\', '0']
  | '\t' => ['\\', 't']
  | '\n' => ['\\', 'n']
  | '\r' => ['\\', 'r']
  | '"' => ['\\', '"']
  | '\\' => ['\\', '\\']
  | c =>
    if isUnprintable c then '\\' :: 'u' :: '{' :: Nat.toDigits 16 c.toNat ++ ['}']
    else [c]

/-- The characters of a string as they stand between quotes. -/
def quoteChars (cs : List Char) : List Char := cs.flatMap quoteChar

/-- Quoted text: the opening quote, every character in its quoted form, the closing quote. -/
def quoted (cs : List Char) : List Char := '"' :: quoteChars cs ++ ['"']

/-- A string in its quoted form. -/
def quote (s : String) : String := String.ofList (quoted s.toList)

@[simp] theorem quoteChars_cons (c : Char) (cs : List Char) :
    quoteChars (c :: cs) = quoteChar c ++ quoteChars cs := rfl

end ComponentKinds.Text
