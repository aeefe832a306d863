import ComponentKinds.Json.Printed.Leaves

/-!
# Printed trees are cut into their tokens

The text of a tree without inexact numbers is cut into the tokens of the tree, followed by
the tokens of whatever text comes after it.
-/

namespace ComponentKinds.Json

mutual

/-- A tree whose numbers are whole and fit 64 bits, signed or unsigned. -/
def isExact : Json → Bool
  | .num (.int value) => Int64.minValue.toInt ≤ value && value < UInt64.size
  | .num (.float _) => false
  | .arr items => itemsExact items
  | .obj members => membersExact members
  | _ => true

/-- Whether every item is exact. -/
def itemsExact : List Json → Bool
  | [] => true
  | item :: rest => item.isExact && itemsExact rest

/-- Whether every member has an exact value. -/
def membersExact : List (String × Json) → Bool
  | [] => true
  | (_, value) :: rest => value.isExact && membersExact rest

end

/-- The token of a printed string. -/
def stringToken (s : String) : Token := .string (s.toList.map Piece.ofChar)

mutual

/-- The tokens of an exact tree. -/
def tokens : Json → List Token
  | .null => [.null]
  | .bool value => [.bool value]
  | .num (.int value) => [.number (.ofInt value)]
  | .num (.float _) => [.broken]
  | .str s => [stringToken s]
  | .arr [] => [.arrayOpen, .arrayClose]
  | .arr (item :: rest) => .arrayOpen :: (item.tokens ++ itemTokens rest)
  | .obj [] => [.objectOpen, .objectClose]
  | .obj ((key, value) :: rest) =>
    .objectOpen :: stringToken key :: .colon :: (value.tokens ++ memberTokens rest)

/-- The tokens of the items after the first, and of the end of the array. -/
def itemTokens : List Json → List Token
  | [] => [.arrayClose]
  | item :: rest => .comma :: (item.tokens ++ itemTokens rest)

/-- The tokens of the members after the first, and of the end of the object. -/
def memberTokens : List (String × Json) → List Token
  | [] => [.objectClose]
  | (key, value) :: rest =>
    .comma :: stringToken key :: .colon :: (value.tokens ++ memberTokens rest)

end

private theorem ofChars_string (s : String) (rest : List Char) :
    Token.ofChars (stringChars s ++ rest) = stringToken s :: Token.ofChars rest := by
  have hscan := Piece.scan_escaped s.toList rest
  have htext : stringChars s ++ rest = '"' :: (s.toList.flatMap escapeChar ++ '"' :: rest) := by
    simp [stringChars]
  rw [htext]
  refine Token.ofChars_cons (by decide) nofun ?_
  simp only [Token.next, hscan]
  rfl

private theorem next_digit {c : Char} (hc : c.isDigit = true ∨ c = '-') (rest : List Char) :
    Token.next c rest = match Numeral.scan (c :: rest) with
      | some (numeral, left) => (.number numeral, left)
      | none => (.broken, []) := by
  unfold Token.next
  split <;> first | (rcases hc with hc | hc <;> cases hc) | rfl

private theorem isBlank_digit {c : Char} (hc : c.isDigit = true ∨ c = '-') :
    Token.isBlank c = false := by
  rcases hc with hc | rfl
  · have hne : ∀ d : Char, d.isDigit = false → c ≠ d := by
      rintro d hd rfl
      rw [hc] at hd
      cases hd
    simp [Token.isBlank, hne ' ' rfl, hne '\t' rfl, hne '\n' rfl, hne '\r' rfl]
  · rfl

private theorem ofChars_decimal {rest : List Char} (h : Numeral.Ends rest) (value : Int) :
    Token.ofChars (Text.decimal value ++ rest) =
      .number (.ofInt value) :: Token.ofChars rest := by
  have hscan := Numeral.scan_decimal h value
  obtain ⟨c, cs, heq, hc⟩ := Text.decimal_eq_cons value
  rw [heq, List.cons_append] at hscan ⊢
  refine Token.ofChars_cons (isBlank_digit hc) nofun ?_
  rw [next_digit hc, hscan]

/-- The token of a character that is one by itself. -/
def punctuation : Char → Token
  | '[' => .arrayOpen
  | ']' => .arrayClose
  | '{' => .objectOpen
  | '}' => .objectClose
  | ',' => .comma
  | ':' => .colon
  | _ => .broken

private theorem ofChars_punctuation {c : Char} (h : punctuation c ≠ .broken) (rest : List Char) :
    Token.ofChars (c :: rest) = punctuation c :: Token.ofChars rest := by
  have hnext : Token.isBlank c = false ∧ Token.next c rest = (punctuation c, rest) := by
    unfold punctuation at h ⊢
    split at h
    case h_7 => exact absurd rfl h
    all_goals exact ⟨by decide, rfl⟩
  exact Token.ofChars_cons hnext.1 h hnext.2

private theorem ends_punctuation {c : Char} (h : punctuation c ≠ .broken) (rest : List Char) :
    Numeral.Ends (c :: rest) := by
  rintro d ⟨⟩
  unfold punctuation at h
  split at h
  case h_7 => exact absurd rfl h
  all_goals decide

private theorem ends_items (items : List Json) (rest : List Char) :
    Numeral.Ends (itemChars items ++ rest) := by
  cases items with
  | nil => exact ends_punctuation (by decide) rest
  | cons => exact ends_punctuation (by decide) _

private theorem ends_members (members : List (String × Json)) (rest : List Char) :
    Numeral.Ends (memberChars members ++ rest) := by
  cases members with
  | nil => exact ends_punctuation (by decide) rest
  | cons => exact ends_punctuation (by decide) _

mutual

/-- The text of an exact tree is cut into its tokens, whatever follows a number. -/
theorem ofChars_chars {j : Json} (h : j.isExact = true) {rest : List Char}
    (hends : Numeral.Ends rest) :
    Token.ofChars (j.chars ++ rest) = j.tokens ++ Token.ofChars rest := by
  match j with
  | .null => exact Token.ofChars_cons (by decide) nofun rfl
  | .bool true => exact Token.ofChars_cons (by decide) nofun rfl
  | .bool false => exact Token.ofChars_cons (by decide) nofun rfl
  | .num (.int value) => exact ofChars_decimal hends value
  | .str s => exact ofChars_string s rest
  | .arr [] => simp (disch := decide) [chars, tokens, ofChars_punctuation, punctuation]
  | .arr (item :: items) =>
    simp only [isExact, itemsExact, Bool.and_eq_true] at h
    simp (disch := decide) only [chars, tokens, List.cons_append, List.append_assoc,
      ofChars_punctuation, punctuation]
    rw [ofChars_chars h.1 (ends_items items rest), ofChars_items h.2]
  | .obj [] => simp (disch := decide) [chars, tokens, ofChars_punctuation, punctuation]
  | .obj ((key, value) :: members) =>
    simp only [isExact, membersExact, Bool.and_eq_true] at h
    simp (disch := decide) only [chars, tokens, List.cons_append, List.append_assoc,
      ofChars_string, ofChars_punctuation, punctuation]
    rw [ofChars_chars h.1 (ends_members members rest), ofChars_members h.2]

/-- The text of the items after the first is cut into their tokens. -/
theorem ofChars_items {items : List Json} (h : itemsExact items = true) {rest : List Char} :
    Token.ofChars (itemChars items ++ rest) = itemTokens items ++ Token.ofChars rest := by
  match items with
  | [] => exact ofChars_punctuation (c := ']') (by decide) rest
  | item :: items =>
    simp only [itemsExact, Bool.and_eq_true] at h
    simp (disch := decide) only [itemChars, itemTokens, List.cons_append, List.append_assoc,
      ofChars_punctuation, punctuation]
    rw [ofChars_chars h.1 (ends_items items rest), ofChars_items h.2]

/-- The text of the members after the first is cut into their tokens. -/
theorem ofChars_members {members : List (String × Json)} (h : membersExact members = true)
    {rest : List Char} :
    Token.ofChars (memberChars members ++ rest) = memberTokens members ++ Token.ofChars rest := by
  match members with
  | [] => exact ofChars_punctuation (c := '}') (by decide) rest
  | (key, value) :: members =>
    simp only [membersExact, Bool.and_eq_true] at h
    simp (disch := decide) only [memberChars, memberTokens, List.cons_append, List.append_assoc,
      ofChars_string, ofChars_punctuation, punctuation]
    rw [ofChars_chars h.1 (ends_members members rest), ofChars_members h.2]

end

end ComponentKinds.Json
