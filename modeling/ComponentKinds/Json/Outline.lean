import ComponentKinds.Json.Token

/-!
# Outlines of JSON text

An outline is the tree of a text as far as the text can be read from left to right. Where
it breaks off, every array and object that is still open ends as broken. Readers that go
through an outline in order thus meet the first fault of the text exactly where a reader
of the text itself would, and a fault of meaning further left comes first.

An outline fixes the grammar and nothing else: how deep a text may nest, which numerals
are numbers and which strings are well formed is asked when a part of it is read. Members
keep their order and repeated keys.
-/

namespace ComponentKinds.Json

mutual

/-- What stands at the place of a value. -/
inductive Outline where
  /-- No value starts here, or it is a leaf that breaks off. -/
  | broken
  | null
  | bool (value : Bool)
  | number (numeral : Numeral)
  | string (pieces : List Piece)
  | array (items : Outline.Items)
  | object (members : Outline.Members)

/-- The items of an array up to its end or to where the text breaks off; after an item
that breaks off itself, nothing follows. -/
inductive Outline.Items where
  | closed
  | broken
  | item (head : Outline) (tail : Outline.Items)

/-- The members of an object up to its end or to where the text breaks off. A member is
there as soon as something stands at the place of its key. -/
inductive Outline.Members where
  | closed
  | broken
  | member (key value : Outline) (tail : Outline.Members)

end

namespace Outline

/-- What stands at the place of a key: a leaf, or the opening of an array or object. -/
def opening : List Token → Outline
  | .null :: _ => .null
  | .bool value :: _ => .bool value
  | .number numeral :: _ => .number numeral
  | .string pieces :: _ => .string pieces
  | .arrayOpen :: _ => .array .broken
  | .objectOpen :: _ => .object .broken
  | _ => .broken

/-- The tokens of a further entry of an array or object: the first one follows directly,
every other one a comma. -/
def entry (first : Bool) (tokens : List Token) : Option (List Token) :=
  if first then some tokens
  else match tokens with
    | .comma :: rest => some rest
    | _ => none

mutual

/-- The outline of the value at the front of the tokens, and the tokens after it unless
it breaks off. Each step down or along takes one of `steps`. -/
def read : (steps : Nat) → List Token → Outline × Option (List Token)
  | steps + 1, .arrayOpen :: rest =>
    let (items, left) := readItems steps true rest
    (.array items, left)
  | steps + 1, .objectOpen :: rest =>
    let (members, left) := readMembers steps true rest
    (.object members, left)
  | _ + 1, .null :: rest => (.null, some rest)
  | _ + 1, .bool value :: rest => (.bool value, some rest)
  | _ + 1, .number numeral :: rest => (.number numeral, some rest)
  | _ + 1, .string pieces :: rest => (.string pieces, some rest)
  | _, _ => (.broken, none)

/-- The items of an open array; `first` says that none was read yet. -/
def readItems : (steps : Nat) → (first : Bool) → List Token → Items × Option (List Token)
  | 0, _, _ => (.broken, none)
  | _ + 1, _, .arrayClose :: rest => (.closed, some rest)
  | steps + 1, first, tokens =>
    match entry first tokens with
    | none => (.broken, none)
    | some body =>
      match read steps body with
      | (head, none) => (.item head .broken, none)
      | (head, some rest) =>
        let (tail, left) := readItems steps false rest
        (.item head tail, left)

/-- The members of an open object; `first` says that none was read yet. -/
def readMembers : (steps : Nat) → (first : Bool) → List Token → Members × Option (List Token)
  | 0, _, _ => (.broken, none)
  | _ + 1, _, .objectClose :: rest => (.closed, some rest)
  | steps + 1, first, tokens =>
    match entry first tokens with
    | none => (.broken, none)
    | some (.string pieces :: .colon :: body) =>
      match read steps body with
      | (value, none) => (.member (.string pieces) value .broken, none)
      | (value, some rest) =>
        let (tail, left) := readMembers steps false rest
        (.member (.string pieces) value tail, left)
    | some body => (.member (opening body) .broken .broken, none)

end

/-- A further item of an array that does not break off. -/
theorem readItems_of_read {steps : Nat} {first : Bool} {tokens body rest : List Token}
    {head : Outline} (hclose : ∀ left, tokens ≠ .arrayClose :: left)
    (hentry : entry first tokens = some body) (hread : read steps body = (head, some rest)) :
    readItems (steps + 1) first tokens =
      (.item head (readItems steps false rest).1, (readItems steps false rest).2) := by
  rw [readItems.eq_def]
  split
  · next heq => cases heq
  · next heq => exact absurd rfl (hclose _)
  · next hsteps _ =>
    cases hsteps
    simp only [hentry, hread]

/-- A further member of an object that does not break off. -/
theorem readMembers_of_read {steps : Nat} {first : Bool} {tokens body rest : List Token}
    {pieces : List Piece} {value : Outline} (hclose : ∀ left, tokens ≠ .objectClose :: left)
    (hentry : entry first tokens = some (.string pieces :: .colon :: body))
    (hread : read steps body = (value, some rest)) :
    readMembers (steps + 1) first tokens =
      (.member (.string pieces) value (readMembers steps false rest).1,
        (readMembers steps false rest).2) := by
  rw [readMembers.eq_def]
  split
  · next heq => cases heq
  · next heq => exact absurd rfl (hclose _)
  · next hsteps _ =>
    cases hsteps
    simp only [hentry, hread]

/-- The outline of the value at the front of the tokens, and the tokens after it unless it
breaks off. An array or object takes two steps for each of its tokens at most. -/
def ofTokens (tokens : List Token) : Outline × Option (List Token) :=
  read (2 * tokens.length + 1) tokens

/-- The string that stands at the place of a key. -/
def key? : Outline → Option String
  | .string pieces => Piece.string? pieces
  | _ => none

mutual

/-- The tree of an unbroken outline, with objects as they are written, if arrays and
objects nest no deeper than `depth` and every string and numeral has a value. -/
def json? (depth : Nat) : Outline → Option Json
  | .broken => none
  | .null => some .null
  | .bool value => some (.bool value)
  | .number numeral => numeral.number?.map .num
  | .string pieces => (Piece.string? pieces).map .str
  | .array items => if depth = 0 then none else (itemsJson? (depth - 1) items).map .arr
  | .object members => if depth = 0 then none else (membersJson? (depth - 1) members).map .obj

/-- The trees of the items of a closed array. -/
def itemsJson? (depth : Nat) : Items → Option (List Json)
  | .closed => some []
  | .broken => none
  | .item head tail => do
    let head ← json? depth head
    let tail ← itemsJson? depth tail
    return head :: tail

/-- The keys and trees of the members of a closed object. -/
def membersJson? (depth : Nat) : Members → Option (List (String × Json))
  | .closed => some []
  | .broken => none
  | .member key value tail => do
    let key ← key? key
    let value ← json? depth value
    let tail ← membersJson? depth tail
    return (key, value) :: tail

end

end Outline

/-- How deep the arrays and objects of a text may nest. -/
def maxDepth : Nat := 127

/-- A text that was outlined: its value, and whether nothing but blanks follows it. -/
structure Draft where
  /-- The outline of the value at the front of the text. -/
  outline : Outline
  /-- Whether the value is complete and ends the text. -/
  ended : Bool

namespace Draft

/-- The draft of a text. -/
def ofChars (cs : List Char) : Draft :=
  let (outline, left) := Outline.ofTokens (Token.ofChars cs)
  ⟨outline, left = some []⟩

/-- The tree of a text, with objects as they are written. -/
def json? (draft : Draft) : Option Json :=
  if draft.ended then draft.outline.json? maxDepth else none

end Draft

/-- The canonical tree of a text. -/
def parse? (text : String) : Option Json := (Draft.ofChars text.toList).json?.map canonical

end ComponentKinds.Json
