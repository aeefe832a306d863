/-!
# String literals of JSON

A string literal is a list of pieces: characters that stand for themselves or have a short
escape, and 16-bit units written as escapes of four digits. Whether a literal ends and has
known escapes only is seen while it is scanned; whether its units pair up, so that it
stands for a string, only matters when the string is asked for.
-/

namespace ComponentKinds.Json

/-- A part of a string literal. -/
inductive Piece where
  /-- A character that stands for itself or has a short escape. -/
  | char (c : Char)
  /-- A 16-bit unit, written as an escape with four hexadecimal digits. -/
  | unit (value : Nat)
  deriving DecidableEq, Repr

namespace Piece

/-- The value of a hexadecimal digit of either case. -/
def hexValue? (c : Char) : Option Nat :=
  if '0' ≤ c ∧ c ≤ '9' then some (c.toNat - '0'.toNat)
  else if 'a' ≤ c ∧ c ≤ 'f' then some (c.toNat - 'a'.toNat + 10)
  else if 'A' ≤ c ∧ c ≤ 'F' then some (c.toNat - 'A'.toNat + 10)
  else none

/-- The number that four hexadecimal digits write. -/
def unitValue? (a b c d : Char) : Option Nat := do
  let a ← hexValue? a
  let b ← hexValue? b
  let c ← hexValue? c
  let d ← hexValue? d
  return ((a * 16 + b) * 16 + c) * 16 + d

/-- The character of an escape of one letter or sign. -/
def shortEscape? : Char → Option Char
  | '"' => some '"'
  | '\\' => some '\\'
  | '/' => some '/'
  | 'b' => some '\x08'
  | 'f' => some '\x0c'
  | 'n' => some '\n'
  | 'r' => some '\r'
  | 't' => some '\t'
  | _ => none

/-- Put a piece in front of those that were scanned after it. -/
def prepend (piece : Piece) (scanned : List Piece × List Char) : List Piece × List Char :=
  (piece :: scanned.1, scanned.2)

/-- The pieces of a string literal up to its closing quote, and the text after it; none if
the literal does not end, holds an unknown escape, or holds a raw control character. -/
def scan : List Char → Option (List Piece × List Char)
  | [] => none
  | '"' :: rest => some ([], rest)
  | '\\' :: 'u' :: a :: b :: c :: d :: rest =>
    match unitValue? a b c d with
    | some value => (scan rest).map (prepend (.unit value))
    | none => none
  | '\\' :: letter :: rest =>
    match shortEscape? letter with
    | some c => (scan rest).map (prepend (.char c))
    | none => none
  | c :: rest => if c.toNat < 0x20 then none else (scan rest).map (prepend (.char c))

@[simp] theorem scan_quote (rest : List Char) : scan ('"' :: rest) = some ([], rest) := rfl

/-- A short escape is one piece. -/
theorem scan_short {letter c : Char} (h : shortEscape? letter = some c) (rest : List Char) :
    scan ('\\' :: letter :: rest) = (scan rest).map (prepend (.char c)) := by
  have hu : letter ≠ 'u' := by rintro rfl; simp [shortEscape?] at h
  rw [scan.eq_def]
  grind

/-- A code escape is one piece. -/
theorem scan_unit {a b c d : Char} {value : Nat} (h : unitValue? a b c d = some value)
    (rest : List Char) :
    scan ('\\' :: 'u' :: a :: b :: c :: d :: rest) = (scan rest).map (prepend (.unit value)) := by
  rw [scan.eq_def]
  grind

/-- Any other character of a literal is one piece, unless it is a control character. -/
theorem scan_char {c : Char} (hq : c ≠ '"') (hb : c ≠ '\\') (hc : 0x20 ≤ c.toNat)
    (rest : List Char) : scan (c :: rest) = (scan rest).map (prepend (.char c)) := by
  rw [scan.eq_def]
  grind

/-- A literal takes its closing quote at least. -/
theorem length_of_scan {cs left : List Char} {pieces : List Piece}
    (h : scan cs = some (pieces, left)) : left.length < cs.length := by
  fun_induction scan cs generalizing pieces left
  all_goals grind [prepend, Option.map_eq_some_iff]

/-- The first unit of a pair. -/
def isHigh (value : Nat) : Bool := 0xd800 ≤ value && value < 0xdc00

/-- The second unit of a pair. -/
def isLow (value : Nat) : Bool := 0xdc00 ≤ value && value < 0xe000

/-- The characters that the pieces stand for; none if a unit of a pair stands alone. -/
def text? : List Piece → Option (List Char)
  | [] => some []
  | .char c :: rest => (text? rest).map (c :: ·)
  | .unit high :: .unit low :: rest =>
    if isHigh high then
      if isLow low then
        (text? rest).map (Char.ofNat (0x10000 + (high - 0xd800) * 0x400 + (low - 0xdc00)) :: ·)
      else none
    else if isLow high then none
    else (text? (.unit low :: rest)).map (Char.ofNat high :: ·)
  | .unit value :: rest =>
    if isHigh value || isLow value then none
    else (text? rest).map (Char.ofNat value :: ·)

/-- The string that the pieces stand for. -/
def string? (pieces : List Piece) : Option String := (text? pieces).map String.ofList

end Piece

end ComponentKinds.Json
