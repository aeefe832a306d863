import ComponentKinds.Json.Basic

/-!
# Numerals of JSON

A numeral is the longest number at the front of a text: an optional sign, digits without a
superfluous zero in front, and optionally a fraction and an exponent. Whether it is in the
range of numbers only matters when its value is asked for.
-/

namespace ComponentKinds.Json

/-- A number as it is written: `± coefficient * 10 ^ power`. -/
structure Numeral where
  /-- Whether a minus sign is written. -/
  negative : Bool
  /-- All digits before the exponent as one number. -/
  coefficient : Nat
  /-- The exponent, less the number of digits after the point. -/
  power : Int
  /-- Whether neither a fraction nor an exponent is written. -/
  whole : Bool
  deriving DecidableEq, Repr

namespace Numeral

/-- The digits at the front of a text, at least one, and the text after them. -/
def digits? (cs : List Char) : Option (List Char × List Char) :=
  if (cs.takeWhile Char.isDigit).isEmpty then none
  else some (cs.takeWhile Char.isDigit, cs.dropWhile Char.isDigit)

/-- Digits before the point: no zero stands in front of others. -/
def leading? (cs : List Char) : Option (List Char × List Char) :=
  match digits? cs with
  | some ('0' :: _ :: _, _) => none
  | result => result

/-- Digits after a point, if there is a point. -/
def fraction? : List Char → Option (List Char × List Char)
  | '.' :: rest => digits? rest
  | cs => some ([], cs)

/-- The value of the digits of an exponent. -/
def signedDigits? (negative : Bool) (cs : List Char) : Option (Option Int × List Char) :=
  (digits? cs).map fun (digits, rest) =>
    let value : Int := Nat.ofDigitChars 10 digits 0
    (some (if negative then -value else value), rest)

/-- An exponent after its letter, with an optional sign. -/
def signedExponent? : List Char → Option (Option Int × List Char)
  | '-' :: rest => signedDigits? true rest
  | '+' :: rest => signedDigits? false rest
  | cs => signedDigits? false cs

/-- The exponent, if its letter follows. -/
def exponent? : List Char → Option (Option Int × List Char)
  | 'e' :: rest => signedExponent? rest
  | 'E' :: rest => signedExponent? rest
  | cs => some (none, cs)

/-- The numeral after its sign. -/
def unsigned? (negative : Bool) (cs : List Char) : Option (Numeral × List Char) := do
  let (leading, cs) ← leading? cs
  let (fraction, cs) ← fraction? cs
  let (exponent, cs) ← exponent? cs
  return ({
    negative
    coefficient := Nat.ofDigitChars 10 (leading ++ fraction) 0
    power := exponent.getD 0 - fraction.length
    whole := fraction.isEmpty && exponent.isNone }, cs)

/-- The numeral at the front of a text, and the text after it. -/
def scan : List Char → Option (Numeral × List Char)
  | '-' :: rest => unsigned? true rest
  | cs => unsigned? false cs

/-- The value of a numeral: a whole one that fits 64 bits, signed or unsigned, is exact,
except that a zero with a minus sign is not whole; any other is the nearest number of the
binary format, if there is one. -/
def number? (n : Numeral) : Option Number :=
  let value : Int := if n.negative then -n.coefficient else n.coefficient
  if n.whole ∧ ¬(n.negative ∧ n.coefficient = 0) ∧
      Int64.minValue.toInt ≤ value ∧ value < UInt64.size then
    some (.int value)
  else (Binary64.ofDecimal? n.negative n.coefficient n.power).map .float

/-- At least one digit is taken. -/
theorem length_of_digits? {cs digits left : List Char} (h : digits? cs = some (digits, left)) :
    left.length < cs.length := by
  have hsplit : cs.takeWhile Char.isDigit ++ cs.dropWhile Char.isDigit = cs :=
    List.takeWhile_append_dropWhile
  have hlength := congrArg List.length hsplit
  rw [List.length_append] at hlength
  unfold digits? at h
  split at h
  · cases h
  · next hne =>
    cases h
    have := List.length_pos_iff.mpr (mt List.isEmpty_iff.mpr hne)
    omega

private theorem length_of_leading? {cs digits left : List Char}
    (h : leading? cs = some (digits, left)) : left.length < cs.length := by
  unfold leading? at h
  split at h
  · cases h
  · exact length_of_digits? h

private theorem length_of_fraction? {cs digits left : List Char}
    (h : fraction? cs = some (digits, left)) : left.length ≤ cs.length := by
  unfold fraction? at h
  split at h
  · have := length_of_digits? h
    rw [List.length_cons]
    omega
  · cases h
    exact Nat.le_refl _

private theorem length_of_signedExponent? {cs left : List Char} {value : Option Int}
    (h : signedExponent? cs = some (value, left)) : left.length < cs.length := by
  have hdigits : ∀ {negative : Bool} {cs : List Char},
      signedDigits? negative cs = some (value, left) → left.length < cs.length := by
    intro negative cs h
    obtain ⟨⟨digits, rest⟩, hd, heq⟩ := Option.map_eq_some_iff.mp h
    cases heq
    exact length_of_digits? hd
  unfold signedExponent? at h
  split at h
  · exact Nat.lt_succ_of_lt (hdigits h)
  · exact Nat.lt_succ_of_lt (hdigits h)
  · exact hdigits h

private theorem length_of_exponent? {cs left : List Char} {value : Option Int}
    (h : exponent? cs = some (value, left)) : left.length ≤ cs.length := by
  unfold exponent? at h
  split at h
  · exact Nat.le_succ_of_le (Nat.le_of_lt (length_of_signedExponent? h))
  · exact Nat.le_succ_of_le (Nat.le_of_lt (length_of_signedExponent? h))
  · cases h
    exact Nat.le_refl _

/-- A numeral takes at least one character. -/
theorem length_of_scan {cs left : List Char} {n : Numeral} (h : scan cs = some (n, left)) :
    left.length < cs.length := by
  have hunsigned : ∀ {negative : Bool} {cs : List Char},
      unsigned? negative cs = some (n, left) → left.length < cs.length := by
    intro negative cs h
    simp only [unsigned?, bind, Option.bind_eq_some_iff, Prod.exists] at h
    obtain ⟨_, _, hleading, _, _, hfraction, _, _, hexponent, heq⟩ := h
    cases heq
    have := length_of_leading? hleading
    have := length_of_fraction? hfraction
    have := length_of_exponent? hexponent
    omega
  unfold scan at h
  split at h
  · exact Nat.lt_succ_of_lt (hunsigned h)
  · exact hunsigned h

end Numeral

end ComponentKinds.Json
