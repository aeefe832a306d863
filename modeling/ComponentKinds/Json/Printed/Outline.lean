import ComponentKinds.Json.Outline
import ComponentKinds.Json.Printed.Tokens

/-!
# Printed trees are read back

The tokens of a tree without inexact numbers are outlined as the tree, whatever follows
them, and the outline has the tree as its value if it nests no deeper than allowed. So
printing a tree and reading it again gives the tree in canonical form.
-/

namespace ComponentKinds.Json

namespace Outline

mutual

/-- The outline of an exact tree. -/
def ofJson : Json → Outline
  | .null => .null
  | .bool value => .bool value
  | .num (.int value) => .number (.ofInt value)
  | .num (.float _) => .broken
  | .str s => .string (s.toList.map Piece.ofChar)
  | .arr items => .array (ofItems items)
  | .obj members => .object (ofMembers members)

/-- The outline of the items of an array. -/
def ofItems : List Json → Items
  | [] => .closed
  | item :: rest => .item (ofJson item) (ofItems rest)

/-- The outline of the members of an object. -/
def ofMembers : List (String × Json) → Members
  | [] => .closed
  | (key, value) :: rest =>
    .member (.string (key.toList.map Piece.ofChar)) (ofJson value) (ofMembers rest)

end

private theorem length_tokens_pos (j : Json) : 0 < j.tokens.length := by
  unfold tokens
  split <;> simp

private theorem length_itemTokens_pos (items : List Json) : 0 < (itemTokens items).length := by
  unfold itemTokens
  split <;> simp

private theorem length_memberTokens_pos (members : List (String × Json)) :
    0 < (memberTokens members).length := by
  unfold memberTokens
  split <;> simp

private theorem tokens_append_ne (j : Json) (rest left : List Token) :
    j.tokens ++ rest ≠ .arrayClose :: left := by
  unfold tokens
  split <;> simp [stringToken]

mutual

/-- The tokens of an exact tree are outlined as the tree, whatever follows them. -/
theorem read_tokens {j : Json} (h : j.isExact = true) {rest : List Token} {steps : Nat}
    (hsteps : 2 * j.tokens.length ≤ steps + 1) :
    read steps (j.tokens ++ rest) = (ofJson j, some rest) := by
  match steps, j with
  | 0, j =>
    have := length_tokens_pos j
    omega
  | _ + 1, .null => rfl
  | _ + 1, .bool value => rfl
  | _ + 1, .num (.int value) => rfl
  | _ + 1, .str s => rfl
  | 1, .arr [] | 1, .obj [] => simp [tokens] at hsteps
  | 1, .arr (item :: items) =>
    have := length_tokens_pos item
    simp only [tokens, List.length_cons, List.length_append] at hsteps
    omega
  | 1, .obj (member :: members) =>
    simp only [tokens, List.length_cons] at hsteps
    omega
  | _ + 2, .arr [] => rfl
  | _ + 2, .obj [] => rfl
  | steps + 2, .arr (item :: items) =>
    simp only [isExact, itemsExact, Bool.and_eq_true] at h
    simp only [tokens, List.length_cons, List.length_append] at hsteps
    have hrest := length_itemTokens_pos items
    have hitem : read steps (item.tokens ++ (itemTokens items ++ rest)) = _ :=
      read_tokens h.1 (by omega)
    have hitems : readItems steps false (itemTokens items ++ rest) = _ :=
      readItems_tokens h.2 (by omega)
    simp only [tokens, List.cons_append, List.append_assoc, read, ofJson, ofItems]
    rw [readItems_of_read (tokens_append_ne item _) rfl hitem, hitems]
  | steps + 2, .obj ((key, value) :: members) =>
    simp only [isExact, membersExact, Bool.and_eq_true] at h
    simp only [tokens, List.length_cons, List.length_append] at hsteps
    have hrest := length_memberTokens_pos members
    have hvalue : read steps (value.tokens ++ (memberTokens members ++ rest)) = _ :=
      read_tokens h.1 (by omega)
    have hmembers : readMembers steps false (memberTokens members ++ rest) = _ :=
      readMembers_tokens h.2 (by omega)
    simp only [tokens, List.cons_append, List.append_assoc, read, ofJson, ofMembers]
    have hread : readMembers (steps + 1) true (stringToken key :: .colon ::
        (value.tokens ++ (memberTokens members ++ rest))) = _ :=
      readMembers_of_read (by simp [stringToken]) rfl hvalue
    rw [hread, hmembers]

/-- The tokens of the items after the first are outlined as the items. -/
theorem readItems_tokens {items : List Json} (h : itemsExact items = true) {rest : List Token}
    {steps : Nat} (hsteps : 2 * (itemTokens items).length ≤ steps + 1) :
    readItems steps false (itemTokens items ++ rest) = (ofItems items, some rest) := by
  match steps, items with
  | 0, items =>
    have := length_itemTokens_pos items
    omega
  | _ + 1, [] => rfl
  | steps + 1, item :: items =>
    simp only [itemsExact, Bool.and_eq_true] at h
    simp only [itemTokens, List.length_cons, List.length_append] at hsteps
    have hrest := length_itemTokens_pos items
    have hitem : read steps (item.tokens ++ (itemTokens items ++ rest)) = _ :=
      read_tokens h.1 (by omega)
    have hitems : readItems steps false (itemTokens items ++ rest) = _ :=
      readItems_tokens h.2 (by omega)
    simp only [itemTokens, List.cons_append, List.append_assoc, ofItems]
    have hread : readItems (steps + 1) false
        (.comma :: (item.tokens ++ (itemTokens items ++ rest))) = _ :=
      readItems_of_read nofun rfl hitem
    rw [hread, hitems]

/-- The tokens of the members after the first are outlined as the members. -/
theorem readMembers_tokens {members : List (String × Json)} (h : membersExact members = true)
    {rest : List Token} {steps : Nat} (hsteps : 2 * (memberTokens members).length ≤ steps + 1) :
    readMembers steps false (memberTokens members ++ rest) = (ofMembers members, some rest) := by
  match steps, members with
  | 0, members =>
    have := length_memberTokens_pos members
    omega
  | _ + 1, [] => rfl
  | steps + 1, (key, value) :: members =>
    simp only [membersExact, Bool.and_eq_true] at h
    simp only [memberTokens, List.length_cons, List.length_append] at hsteps
    have hrest := length_memberTokens_pos members
    have hvalue : read steps (value.tokens ++ (memberTokens members ++ rest)) = _ :=
      read_tokens h.1 (by omega)
    have hmembers : readMembers steps false (memberTokens members ++ rest) = _ :=
      readMembers_tokens h.2 (by omega)
    simp only [memberTokens, List.cons_append, List.append_assoc, ofMembers]
    have hread : readMembers (steps + 1) false (.comma :: stringToken key :: .colon ::
        (value.tokens ++ (memberTokens members ++ rest))) = _ :=
      readMembers_of_read nofun rfl hvalue
    rw [hread, hmembers]

end

end Outline

mutual

/-- How deep arrays and objects nest. -/
def depth : Json → Nat
  | .arr items => itemsDepth items + 1
  | .obj members => membersDepth members + 1
  | _ => 0

/-- The depth of the deepest item. -/
def itemsDepth : List Json → Nat
  | [] => 0
  | item :: rest => max item.depth (itemsDepth rest)

/-- The depth of the deepest member. -/
def membersDepth : List (String × Json) → Nat
  | [] => 0
  | (_, value) :: rest => max value.depth (membersDepth rest)

end

namespace Outline

mutual

/-- The outline of an exact tree has the tree as its value. -/
theorem json?_ofJson {j : Json} (h : j.isExact = true) {depth : Nat} (hdepth : j.depth ≤ depth) :
    json? depth (ofJson j) = some j := by
  match j with
  | .null => rfl
  | .bool value => rfl
  | .num (.int value) =>
    simp only [isExact, Bool.and_eq_true, decide_eq_true_eq] at h
    simp [ofJson, json?, Numeral.number?_ofInt h.1 h.2]
  | .str s => simp [ofJson, json?, Piece.string?_map_ofChar]
  | .arr items =>
    simp only [Json.depth] at hdepth
    simp only [isExact] at h
    have hne : depth ≠ 0 := by omega
    have hitems : itemsJson? (depth - 1) (ofItems items) = _ := itemsJson?_ofItems h (by omega)
    simp [ofJson, json?, hne, hitems]
  | .obj members =>
    simp only [Json.depth] at hdepth
    simp only [isExact] at h
    have hne : depth ≠ 0 := by omega
    have hmembers : membersJson? (depth - 1) (ofMembers members) = _ :=
      membersJson?_ofMembers h (by omega)
    simp [ofJson, json?, hne, hmembers]

/-- The outline of exact items has the items as its values. -/
theorem itemsJson?_ofItems {items : List Json} (h : itemsExact items = true) {depth : Nat}
    (hdepth : itemsDepth items ≤ depth) : itemsJson? depth (ofItems items) = some items := by
  match items with
  | [] => rfl
  | item :: items =>
    simp only [itemsExact, Bool.and_eq_true] at h
    simp only [itemsDepth] at hdepth
    have hitem : json? depth (ofJson item) = _ := json?_ofJson h.1 (by omega)
    have hitems : itemsJson? depth (ofItems items) = _ := itemsJson?_ofItems h.2 (by omega)
    simp [ofItems, itemsJson?, hitem, hitems]

/-- The outline of exact members has the members as its values. -/
theorem membersJson?_ofMembers {members : List (String × Json)} (h : membersExact members = true)
    {depth : Nat} (hdepth : membersDepth members ≤ depth) :
    membersJson? depth (ofMembers members) = some members := by
  match members with
  | [] => rfl
  | (key, value) :: members =>
    simp only [membersExact, Bool.and_eq_true] at h
    simp only [membersDepth] at hdepth
    have hvalue : json? depth (ofJson value) = _ := json?_ofJson h.1 (by omega)
    have hmembers : membersJson? depth (ofMembers members) = _ :=
      membersJson?_ofMembers h.2 (by omega)
    simp [ofMembers, membersJson?, key?, Piece.string?_map_ofChar, hvalue, hmembers]

end

end Outline

/-- The text of an exact tree is outlined as the tree and ends with it. -/
theorem draft_chars {j : Json} (h : j.isExact = true) :
    Draft.ofChars j.chars = ⟨Outline.ofJson j, true⟩ := by
  have htokens : Token.ofChars j.chars = j.tokens := by
    have hchars : Token.ofChars (j.chars ++ []) = _ := ofChars_chars h nofun
    simpa [Token.ofChars, Token.scan] using hchars
  have hread : Outline.read (2 * j.tokens.length + 1) (j.tokens ++ []) = _ :=
    Outline.read_tokens h (by omega)
  rw [List.append_nil] at hread
  simp [Draft.ofChars, htokens, Outline.ofTokens, hread]

/-- Printing an exact tree that nests no deeper than allowed, and reading it again, gives
its canonical form. -/
theorem parse?_render {j : Json} (h : j.isExact = true) (hdepth : j.depth ≤ maxDepth) :
    parse? j.render = some j.canonical := by
  simp [parse?, render, draft_chars h, Draft.json?, Outline.json?_ofJson h hdepth]

end ComponentKinds.Json
