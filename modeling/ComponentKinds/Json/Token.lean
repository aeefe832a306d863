import ComponentKinds.Json.Numeral
import ComponentKinds.Json.Piece
import ComponentKinds.Text.Plain

/-!
# Tokens of JSON text

A text is cut into tokens from left to right, without regard to how they nest. Blanks
between tokens are dropped. Where the characters start no token, a last token says that
the text is broken there, and what follows is not looked at.
-/

namespace ComponentKinds.Json

/-- A token of JSON text. -/
inductive Token where
  | null
  | bool (value : Bool)
  | number (numeral : Numeral)
  | string (pieces : List Piece)
  | arrayOpen
  | arrayClose
  | objectOpen
  | objectClose
  | comma
  | colon
  /-- The characters start no token; nothing after them is read. -/
  | broken
  deriving DecidableEq, Repr

namespace Token

/-- The blanks of JSON: space, tab, line feed and carriage return. -/
def isBlank (c : Char) : Bool := c = ' ' || c = '\t' || c = '\n' || c = '\r'

/-- A token whose remaining letters must follow. -/
def keyword (letters : List Char) (token : Token) (rest : List Char) : Token × List Char :=
  match Text.after? letters rest with
  | some left => (token, left)
  | none => (.broken, [])

/-- The token that starts with a character that is not blank, and the text after it. -/
def next (c : Char) (rest : List Char) : Token × List Char :=
  match c with
  | '[' => (.arrayOpen, rest)
  | ']' => (.arrayClose, rest)
  | '{' => (.objectOpen, rest)
  | '}' => (.objectClose, rest)
  | ',' => (.comma, rest)
  | ':' => (.colon, rest)
  | 'n' => keyword ['u', 'l', 'l'] .null rest
  | 't' => keyword ['r', 'u', 'e'] (.bool true) rest
  | 'f' => keyword ['a', 'l', 's', 'e'] (.bool false) rest
  | '"' =>
    match Piece.scan rest with
    | some (pieces, left) => (.string pieces, left)
    | none => (.broken, [])
  | c =>
    match Numeral.scan (c :: rest) with
    | some (numeral, left) => (.number numeral, left)
    | none => (.broken, [])

/-- A token leaves no more of the text than follows its first character. -/
theorem length_of_next {c : Char} {rest left : List Char} {token : Token}
    (h : next c rest = (token, left)) : left.length ≤ rest.length := by
  have hkeyword : ∀ {letters : List Char} {word : Token},
      keyword letters word rest = (token, left) → left.length ≤ rest.length := by
    intro letters word h
    unfold keyword at h
    split at h
    · next hafter =>
      cases h
      rw [Text.after?_eq_some_iff.mp hafter, List.length_append]
      omega
    · cases h
      exact Nat.zero_le _
  unfold next at h
  split at h
  case h_7 | h_8 | h_9 => exact hkeyword h
  case h_10 =>
    split at h
    · next hscan =>
      cases h
      exact Nat.le_of_lt (Piece.length_of_scan hscan)
    · cases h
      exact Nat.zero_le _
  case h_11 =>
    split at h
    · next hscan =>
      cases h
      exact Nat.le_of_lt_succ (Numeral.length_of_scan hscan)
    · cases h
      exact Nat.zero_le _
  all_goals
    cases h
    exact Nat.le_refl _

/-- At most `steps` tokens of a text; every token takes at least one character. -/
def scan : (steps : Nat) → List Char → List Token
  | 0, _ => []
  | steps + 1, cs =>
    match cs.dropWhile isBlank with
    | [] => []
    | c :: rest =>
      match next c rest with
      | (.broken, _) => [.broken]
      | (token, left) => token :: scan steps left

/-- The tokens of a text. -/
def ofChars (cs : List Char) : List Token := scan cs.length cs

private theorem scan_congr {m n : Nat} {cs : List Char} (hm : cs.length ≤ m)
    (hn : cs.length ≤ n) : scan m cs = scan n cs := by
  induction m generalizing n cs with
  | zero =>
    have hnil := List.eq_nil_of_length_eq_zero (Nat.le_zero.mp hm)
    subst hnil
    cases n <;> rfl
  | succ m ih =>
    cases n with
    | zero =>
      have hnil := List.eq_nil_of_length_eq_zero (Nat.le_zero.mp hn)
      subst hnil
      rfl
    | succ n =>
      have hdrop : (cs.dropWhile isBlank).length ≤ cs.length :=
        (List.dropWhile_sublist _).length_le
      simp only [scan]
      split
      · rfl
      · next c rest heq =>
        rw [heq, List.length_cons] at hdrop
        split
        · rfl
        · next hnext =>
          have := length_of_next hnext
          rw [ih (n := n) (by omega) (by omega)]

/-- What is left of a text behind its blanks has none in front. -/
theorem isBlank_of_dropWhile {cs rest : List Char} {c : Char}
    (h : cs.dropWhile isBlank = c :: rest) : isBlank c = false := by
  have hhead := List.head?_dropWhile_not isBlank cs
  rwa [h] at hhead

/-- Blanks at the front of a text make no difference. -/
theorem ofChars_dropWhile (cs : List Char) : ofChars (cs.dropWhile isBlank) = ofChars cs := by
  have hle : (cs.dropWhile isBlank).length ≤ cs.length := (List.dropWhile_sublist _).length_le
  have htwice : (cs.dropWhile isBlank).dropWhile isBlank = cs.dropWhile isBlank := by
    cases hdrop : cs.dropWhile isBlank with
    | nil => rfl
    | cons c rest => simp [isBlank_of_dropWhile hdrop]
  rw [ofChars, scan_congr (Nat.le_refl _) hle, ofChars]
  cases cs.length with
  | zero => rfl
  | succ steps => rw [scan, scan, htwice]

/-- Where the characters start no token, the text is broken. -/
theorem ofChars_broken {c : Char} {rest left : List Char} (hblank : isBlank c = false)
    (hnext : next c rest = (.broken, left)) : ofChars (c :: rest) = [.broken] := by
  have hdrop : (c :: rest).dropWhile isBlank = c :: rest := by simp [hblank]
  rw [ofChars, List.length_cons, scan, hdrop]
  simp only [hnext]

/-- A token at the front of a text is followed by the tokens of the rest. -/
theorem ofChars_cons {c : Char} {rest left : List Char} {token : Token}
    (hblank : isBlank c = false) (hbroken : token ≠ .broken)
    (hnext : next c rest = (token, left)) :
    ofChars (c :: rest) = token :: ofChars left := by
  have hlength := length_of_next hnext
  have hdrop : (c :: rest).dropWhile isBlank = c :: rest := by simp [hblank]
  rw [ofChars, List.length_cons, scan, hdrop]
  simp only [hnext]
  rw [scan_congr hlength (Nat.le_refl _), ofChars]

end Token

end ComponentKinds.Json
