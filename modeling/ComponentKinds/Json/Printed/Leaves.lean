import ComponentKinds.Json.Printer
import ComponentKinds.Json.Token

/-!
# Printed leaves are read back

A printed string is scanned as one piece for each of its characters, and the pieces stand
for the string. A printed whole number is scanned up to its end, as long as nothing follows
that would be a part of it, and its numeral has its value.
-/

namespace ComponentKinds.Json

namespace Piece

/-- The piece that a printed character is read as. -/
def ofChar (c : Char) : Piece :=
  if c.toNat < 0x20 ∧ c ≠ '\x08' ∧ c ≠ '\x0c' ∧ c ≠ '\n' ∧ c ≠ '\r' ∧ c ≠ '\t' then
    .unit c.toNat
  else .char c

private theorem unitValue?_code {code : Nat} (h : code < 0x20) :
    unitValue? '0' '0' (Nat.digitChar (code / 16)) (Nat.digitChar (code % 16)) = some code := by
  have hall : ∀ n < 0x20,
      unitValue? '0' '0' (Nat.digitChar (n / 16)) (Nat.digitChar (n % 16)) = some n := by decide
  exact hall code h

/-- A printed character is one piece of a literal. -/
theorem scan_escapeChar (c : Char) (rest : List Char) :
    scan (escapeChar c ++ rest) = (scan rest).map (prepend (ofChar c)) := by
  unfold escapeChar
  split
  case h_8 hq hb hbackspace hfeed hline hreturn htab =>
    split
    · next hlt =>
      have hpiece : ofChar c = .unit c.toNat := by simp_all [ofChar]
      rw [hpiece]
      exact scan_unit (unitValue?_code hlt) rest
    · next hlt =>
      have hpiece : ofChar c = .char c := by simp_all [ofChar]
      rw [hpiece]
      exact scan_char hq hb (Nat.not_lt.mp hlt) rest
  all_goals exact scan_short rfl rest

/-- A printed string is scanned up to its closing quote. -/
theorem scan_escaped (cs rest : List Char) :
    scan (cs.flatMap escapeChar ++ '"' :: rest) = some (cs.map ofChar, rest) := by
  induction cs with
  | nil => exact scan_quote rest
  | cons c cs ih =>
    rw [List.flatMap_cons, List.append_assoc, scan_escapeChar, ih]
    rfl

private theorem text?_ofChar (c : Char) (rest : List Piece) :
    text? (ofChar c :: rest) = (text? rest).map (c :: ·) := by
  unfold ofChar
  split
  · next h =>
    have hhigh : isHigh c.toNat = false := by simp [isHigh]; omega
    have hlow : isLow c.toNat = false := by simp [isLow]; omega
    cases rest with
    | nil => simp [text?, hhigh, hlow]
    | cons piece rest => cases piece <;> simp [text?, hhigh, hlow]
  · rfl

/-- The pieces of a printed string stand for the string. -/
theorem string?_map_ofChar (s : String) : string? (s.toList.map ofChar) = some s := by
  have htext : ∀ cs : List Char, text? (cs.map ofChar) = some cs := by
    intro cs
    induction cs with
    | nil => rfl
    | cons c cs ih => rw [List.map_cons, text?_ofChar, ih]; rfl
  rw [string?, htext, Option.map_some, String.ofList_toList]

end Piece

namespace Numeral

/-- The numeral of a whole number that is written with its digits alone. -/
def ofInt (value : Int) : Numeral := ⟨decide (value < 0), value.natAbs, 0, true⟩

/-- What may follow a number without becoming a part of it. -/
def Ends (rest : List Char) : Prop :=
  ∀ c, rest.head? = some c → c.isDigit = false ∧ c ≠ '.' ∧ c ≠ 'e' ∧ c ≠ 'E'

private theorem eq_zero_of_head {n : Nat} (h : (Nat.toDigits 10 n).head? = some '0') : n = 0 := by
  induction n using Nat.strongRecOn with
  | ind n ih =>
    rw [Nat.toDigits_eq_if (by decide)] at h
    split at h
    · simpa using h
    · cases hd : Nat.toDigits 10 (n / 10) with
      | nil => exact absurd hd Nat.toDigits_ne_nil
      | cons c cs =>
        have := ih (n / 10) (by omega) (by rw [hd] at h ⊢; simpa using h)
        omega

private theorem digits?_toDigits {rest : List Char} (h : Ends rest) (n : Nat) :
    digits? (Nat.toDigits 10 n ++ rest) = some (Nat.toDigits 10 n, rest) := by
  have hdigits : ∀ c ∈ Nat.toDigits 10 n, c.isDigit = true := fun c hc =>
    Nat.isDigit_of_mem_toDigits (by decide) (by decide) hc
  have hrest : rest.takeWhile Char.isDigit = [] ∧ rest.dropWhile Char.isDigit = rest := by
    cases rest with
    | nil => exact ⟨rfl, rfl⟩
    | cons c rest => simp [(h c rfl).1]
  simp [digits?, List.takeWhile_append_of_pos hdigits, List.dropWhile_append_of_pos hdigits,
    hrest.1, hrest.2, Nat.toDigits_ne_nil]

private theorem leading?_toDigits {rest : List Char} (h : Ends rest) (n : Nat) :
    leading? (Nat.toDigits 10 n ++ rest) = some (Nat.toDigits 10 n, rest) := by
  unfold leading?
  rw [digits?_toDigits h]
  split
  · next hzero =>
    cases hd : Nat.toDigits 10 n with
    | nil => exact absurd hd Nat.toDigits_ne_nil
    | cons c cs =>
      have hn : n = 0 := eq_zero_of_head (by simp_all)
      subst hn
      simp_all
  · rfl

private theorem unsigned?_toDigits {rest : List Char} (h : Ends rest) (negative : Bool)
    (n : Nat) :
    unsigned? negative (Nat.toDigits 10 n ++ rest) = some (⟨negative, n, 0, true⟩, rest) := by
  have hfraction : fraction? rest = some ([], rest) := by
    unfold fraction?
    split
    · exact absurd rfl (h '.' rfl).2.1
    · rfl
  have hexponent : exponent? rest = some (none, rest) := by
    unfold exponent?
    split
    · exact absurd rfl (h 'e' rfl).2.2.1
    · exact absurd rfl (h 'E' rfl).2.2.2
    · rfl
  simp [unsigned?, leading?_toDigits h, hfraction, hexponent, Nat.ofDigitChars_toDigits]

/-- A printed whole number is scanned up to its end. -/
theorem scan_decimal {rest : List Char} (h : Ends rest) (value : Int) :
    scan (Text.decimal value ++ rest) = some (ofInt value, rest) := by
  unfold Text.decimal ofInt
  split
  · next hneg =>
    simp only [List.cons_append, scan, hneg, decide_true]
    exact unsigned?_toDigits h true _
  · next hneg =>
    simp only [hneg, decide_false]
    rw [scan.eq_def]
    split
    · next left heq =>
      have hmem : '-' ∈ Nat.toDigits 10 value.natAbs := by
        cases hd : Nat.toDigits 10 value.natAbs with
        | nil => exact absurd hd Nat.toDigits_ne_nil
        | cons c cs => rw [hd] at heq; simp_all
      cases Nat.isDigit_of_mem_toDigits (by decide) (by decide) hmem
    · exact unsigned?_toDigits h false _

/-- The numeral of a whole number of 64 bits has its value. -/
theorem number?_ofInt {value : Int} (lo : Int64.minValue.toInt ≤ value)
    (hi : value < UInt64.size) :
    (ofInt value).number? = some (.int value) := by
  simp only [number?, ofInt]
  grind

end Numeral

end ComponentKinds.Json
