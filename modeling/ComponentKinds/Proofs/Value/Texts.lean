import ComponentKinds.Proofs.Decoding.Outlines
import ComponentKinds.Proofs.Value.Denotation

/-!
# The texts of attribute values

The text of a value has the tokens of one leaf, or of an array of string literals; a numeral has
neither a fraction nor an exponent, and a zero has no sign. These are the texts that are read as
the value, though the reader knows nothing of tokens: it takes the tree of the text as it is
written and tries one kind after the other. So it agrees with the two readers of trees on every
text, as these agree with each other on every tree.
-/

namespace ComponentKinds

namespace Json

/-- The digits of a numeral in front of its exponent, with its sign. -/
def Numeral.signed (n : Numeral) : Int := if n.negative then -n.coefficient else n.coefficient

/-- A numeral is a 64-bit integer exactly if its digits and its sign write that alone. -/
theorem Numeral.number?_eq_int_iff {n : Numeral} {i : Int64} :
    n.number? = some (.int i.toInt) ↔
      n.whole = true ∧ (n.negative = true → n.coefficient ≠ 0) ∧ n.signed = i.toInt := by
  have hlower := i.minValue_le_toInt
  have hupper : i.toInt < UInt64.size := by
    have hlt := i.toInt_lt
    simp only [UInt64.size]
    omega
  have hnumber : n.number? = if n.whole ∧ ¬(n.negative ∧ n.coefficient = 0) ∧
      Int64.minValue.toInt ≤ n.signed ∧ n.signed < UInt64.size then some (.int n.signed)
      else (Binary64.ofDecimal? n.negative n.coefficient n.power).map .float := rfl
  rw [hnumber]
  constructor
  · intro h
    split at h
    · next hexact =>
      obtain ⟨hwhole, hzero, _⟩ := hexact
      exact ⟨hwhole, fun hneg h => hzero ⟨hneg, h⟩, Number.int.inj (Option.some.inj h)⟩
    · obtain ⟨_, _, heq⟩ := Option.map_eq_some_iff.mp h
      cases heq
  · rintro ⟨hwhole, hzero, hvalue⟩
    rw [hvalue, if_pos ⟨hwhole, fun h => hzero h.1 h.2, hlower, hupper⟩]

/-- The tokens of string literals as the items of an array, up to its end; `first` says that no
item stands before them. -/
def literalTokens (first : Bool) : List (List Piece) → List Token
  | [] => [.arrayClose]
  | pieces :: rest => (if first then [] else [.comma]) ++ .string pieces :: literalTokens false rest

/-- String literals, and the strings that they stand for. -/
def StandFor (literals : List (List Piece)) (strings : List String) : Prop :=
  List.Forall₂ (fun pieces s => Piece.string? pieces = some s) literals strings

/-- The tokens of the texts of values: of a leaf, or of an array of string literals. -/
inductive WritesValue : List Token → Value → Prop
  | bool (b : Bool) : WritesValue [.bool b] (.bool b)
  | int {n : Numeral} {i : Int64} (whole : n.whole = true)
      (zero_unsigned : n.negative = true → n.coefficient ≠ 0) (value : n.signed = i.toInt) :
      WritesValue [.number n] (.int i)
  | string {pieces : List Piece} {s : String} (text : Piece.string? pieces = some s) :
      WritesValue [.string pieces] (.string s)
  | strings {literals : List (List Piece)} {strings : List String}
      (texts : StandFor literals strings) :
      WritesValue (.arrayOpen :: literalTokens true literals) (.strings strings)

namespace Outline

section Trees

variable {o : Outline} {depth : Nat}

theorem json?_eq_bool_iff {b : Bool} : o.json? depth = some (.bool b) ↔ o = .bool b := by
  cases o <;> simp [json?]

theorem json?_eq_num_iff {number : Number} :
    o.json? depth = some (.num number) ↔ ∃ n, o = .number n ∧ n.number? = some number := by
  cases o <;> simp [json?]

theorem json?_eq_str_iff {s : String} : o.json? depth = some (.str s) ↔
    ∃ pieces, o = .string pieces ∧ Piece.string? pieces = some s := by
  cases o <;> simp [json?]

theorem json?_eq_arr_iff {trees : List Json} : o.json? (depth + 1) = some (.arr trees) ↔
    ∃ items, o = .array items ∧ itemsJson? depth items = some trees := by
  cases o <;> simp [json?]

end Trees

/-- The outline of a token that is a leaf. -/
def leaf? : Token → Option Outline
  | .null => some .null
  | .bool value => some (.bool value)
  | .number numeral => some (.number numeral)
  | .string pieces => some (.string pieces)
  | _ => none

/-- A leaf is outlined exactly where its token stands. -/
theorem read_eq_leaf_iff (token : Token) {o : Outline} (hleaf : leaf? token = some o) {steps : Nat}
    {tokens rest : List Token} :
    read (steps + 1) tokens = (o, some rest) ↔ tokens = token :: rest := by
  cases token <;> cases hleaf <;> cases tokens with
  | nil => simp [read]
  | cons head tail => cases head <;> simp [read]

/-- An array is outlined exactly where it opens and its items do not break off. -/
theorem read_eq_array_iff {steps : Nat} {tokens rest : List Token} {items : Items} :
    read (steps + 1) tokens = (.array items, some rest) ↔
      ∃ body, tokens = .arrayOpen :: body ∧ readItems steps true body = (items, some rest) := by
  cases tokens with
  | nil => simp [read]
  | cons head tail => cases head <;> simp [read, Prod.ext_iff]

/-- A further entry is what stands there, behind a comma unless it is the first. -/
theorem entry_eq_some_iff {first : Bool} {tokens body : List Token} :
    entry first tokens = some body ↔ tokens = (if first then [] else [.comma]) ++ body := by
  cases first with
  | true => simp [entry]
  | false =>
    cases tokens with
    | nil => simp [entry]
    | cons head tail => cases head <;> simp [entry]

/-- Items that do not break off are those up to the end of the array, or else an item and those
after it. -/
theorem readItems_eq_some_iff {steps : Nat} {first : Bool} {tokens rest : List Token}
    {items : Items} : readItems (steps + 1) first tokens = (items, some rest) ↔
      (tokens = .arrayClose :: rest ∧ items = .closed) ∨
      ∃ body head between tail, (∀ left, tokens ≠ .arrayClose :: left) ∧
        entry first tokens = some body ∧ read steps body = (head, some between) ∧
        readItems steps false between = (tail, some rest) ∧ items = .item head tail := by
  constructor
  · intro h
    rw [readItems.eq_def] at h
    split at h
    · next heq => cases heq
    · cases h
      exact Or.inl ⟨rfl, rfl⟩
    · next hsteps hopen =>
      cases hsteps
      split at h
      · cases h
      · next body hentry =>
        split at h
        · cases h
        · next head between hread =>
          obtain ⟨hitems, hleft⟩ := Prod.mk.inj h
          refine Or.inr ⟨body, head, between, _, hopen, hentry, hread, ?_, hitems.symm⟩
          exact Prod.ext rfl hleft
  · rintro (⟨rfl, rfl⟩ | ⟨body, head, between, tail, hopen, hentry, hread, htail, rfl⟩)
    · rfl
    · rw [readItems_of_read hopen hentry hread, htail]

theorem length_lt_literalTokens (literals : List (List Piece)) (first : Bool) :
    literals.length < (literalTokens first literals).length := by
  induction literals generalizing first with
  | nil => simp [literalTokens]
  | cons pieces rest ih =>
    have hrest := ih false
    simp only [literalTokens, List.length_append, List.length_cons]
    omega

section Literals

variable {literals : List (List Piece)} {strings : List String} {steps depth : Nat} {first : Bool}

/-- The tokens of string literals are outlined as items with the strings as their trees. A step is
taken for each literal, and one more for the item that it makes. -/
theorem readItems_literalTokens (h : StandFor literals strings)
    (hsteps : literals.length < steps) (rest : List Token) : ∃ items,
      readItems steps first (literalTokens first literals ++ rest) = (items, some rest) ∧
        itemsJson? depth items = some (strings.map .str) := by
  induction h generalizing steps first with
  | nil =>
    obtain ⟨steps, rfl⟩ := Nat.exists_eq_succ_of_ne_zero (Nat.ne_of_gt hsteps)
    exact ⟨.closed, readItems_eq_some_iff.mpr (Or.inl ⟨rfl, rfl⟩), rfl⟩
  | @cons pieces s literals strings hs _ ih =>
    match steps, hsteps with
    | steps + 2, hsteps =>
      obtain ⟨tail, htail, htrees⟩ := ih (Nat.lt_of_succ_lt_succ hsteps)
      refine ⟨.item (.string pieces) tail, readItems_eq_some_iff.mpr (Or.inr ?_), ?_⟩
      · refine ⟨.string pieces :: (literalTokens false literals ++ rest), .string pieces, _, tail,
          ?_, ?_, ?_, htail, rfl⟩
        · cases first <;> simp [literalTokens]
        · simp [entry_eq_some_iff, literalTokens]
        · exact (read_eq_leaf_iff (.string pieces) rfl).mpr rfl
      · simp [itemsJson?, htrees, json?, hs]

/-- Items with strings as their trees are outlined from the tokens of string literals only. -/
theorem eq_literalTokens_of_readItems {tokens rest : List Token} {items : Items}
    (hread : readItems steps first tokens = (items, some rest))
    (htrees : itemsJson? depth items = some (strings.map .str)) :
    ∃ literals, StandFor literals strings ∧ tokens = literalTokens first literals ++ rest := by
  induction steps generalizing first tokens items strings with
  | zero => cases hread
  | succ steps ih =>
    rcases readItems_eq_some_iff.mp hread with ⟨rfl, rfl⟩ | hitem
    · have hnil : strings = [] := by simpa [itemsJson?] using htrees
      exact ⟨[], hnil ▸ .nil, rfl⟩
    · obtain ⟨body, head, between, tail, _, hentry, hhead, htail, rfl⟩ := hitem
      obtain ⟨j, trees, hj, hrest, heq⟩ := itemsJson?_item_eq_some_iff.mp htrees
      obtain ⟨s, strings, rfl, rfl, rfl⟩ := List.map_eq_cons_iff.mp heq.symm
      obtain ⟨pieces, rfl, hs⟩ := json?_eq_str_iff.mp hj
      obtain ⟨literals, hliterals, rfl⟩ := ih htail hrest
      refine ⟨pieces :: literals, .cons hs hliterals, ?_⟩
      cases steps with
      | zero => cases hhead
      | succ steps =>
        rw [entry_eq_some_iff.mp hentry, (read_eq_leaf_iff (.string pieces) rfl).mp hhead,
          literalTokens, List.append_assoc, List.cons_append]

end Literals

/-- The tokens up to the end of a text are outlined as the form of a value exactly if they write
the value. -/
theorem ofTokens_iff_writesValue {tokens : List Token} {v : Value} :
    (∃ o, ofTokens tokens = (o, some []) ∧ o.json? maxDepth = some v.toJson) ↔
      WritesValue tokens v := by
  constructor
  · rintro ⟨o, hread, htree⟩
    cases v with
    | bool b =>
      cases json?_eq_bool_iff.mp htree
      rw [(read_eq_leaf_iff (.bool b) rfl).mp hread]
      exact .bool b
    | int i =>
      obtain ⟨n, rfl, hn⟩ := json?_eq_num_iff.mp htree
      obtain ⟨hwhole, hzero, hvalue⟩ := Numeral.number?_eq_int_iff.mp hn
      rw [(read_eq_leaf_iff (.number n) rfl).mp hread]
      exact .int hwhole hzero hvalue
    | string s =>
      obtain ⟨pieces, rfl, hs⟩ := json?_eq_str_iff.mp htree
      rw [(read_eq_leaf_iff (.string pieces) rfl).mp hread]
      exact .string hs
    | strings strings =>
      obtain ⟨items, rfl, hitems⟩ := json?_eq_arr_iff.mp htree
      obtain ⟨body, rfl, hbody⟩ := read_eq_array_iff.mp hread
      obtain ⟨literals, hliterals, rfl⟩ := eq_literalTokens_of_readItems hbody hitems
      rw [List.append_nil]
      exact .strings hliterals
  · intro h
    cases h with
    | bool b => exact ⟨.bool b, (read_eq_leaf_iff (.bool b) rfl).mpr rfl, rfl⟩
    | @int n i whole zero_unsigned value =>
      have hn := Numeral.number?_eq_int_iff.mpr ⟨whole, zero_unsigned, value⟩
      exact ⟨.number n, (read_eq_leaf_iff (.number n) rfl).mpr rfl,
        json?_eq_num_iff.mpr ⟨n, rfl, hn⟩⟩
    | @string pieces s text =>
      exact ⟨.string pieces, (read_eq_leaf_iff (.string pieces) rfl).mpr rfl,
        json?_eq_str_iff.mpr ⟨pieces, rfl, text⟩⟩
    | @strings literals strings texts =>
      have hsteps : literals.length < 2 * (literalTokens true literals).length + 2 := by
        have := length_lt_literalTokens literals true
        omega
      obtain ⟨items, hbody, hitems⟩ := readItems_literalTokens texts hsteps []
      rw [List.append_nil] at hbody
      exact ⟨.array items, read_eq_array_iff.mpr ⟨_, rfl, hbody⟩,
        json?_eq_arr_iff.mpr ⟨items, rfl, hitems⟩⟩

end Outline

/-- The tree of a text as it is written is the form of a value exactly if its tokens write the
value. -/
theorem json?_ofChars_iff_writesValue {cs : List Char} {v : Value} :
    (Draft.ofChars cs).json? = some v.toJson ↔ WritesValue (Token.ofChars cs) v := by
  rw [← Outline.ofTokens_iff_writesValue]
  cases hread : Outline.ofTokens (Token.ofChars cs) with
  | mk o left => simp [Draft.ofChars, Draft.json?, hread]

end Json

namespace Value

open Json

/-- A text is read as a value exactly if its tree, as it is written, is the form of the value. -/
theorem ofText_eq_ok_iff_json? {text : String} {v : Value} :
    ofText text = .ok v ↔ (Draft.ofChars text.toList).json? = some v.toJson := by
  simp only [ofText, Draft.decode, bind_eq_ok_iff, Outline.decodeValue_eq_ok_iff, Draft.json?]
  cases hended : (Draft.ofChars text.toList).ended with
  | true => simp [pure, Except.pure]
  | false => simp [throw, throwThe, MonadExceptOf.throw]

/-- The three readers of values agree. A tree is read by a look at its form exactly as it is by
trying the kinds in order, and a text exactly as the tree that it is parsed to. Trees are read as
what they denote, and texts as what their tokens write. -/
theorem readings_agree :
    (∀ j v, ofJson j = .ok v ↔ untagged? j = some v) ∧
    (∀ text v, ofText text = .ok v ↔ ∃ j, parse? text = some j ∧ ofJson j = .ok v) ∧
    (∀ j v, ofJson j = .ok v ↔ j.DenotesValue v) ∧
    ∀ text v, ofText text = .ok v ↔ WritesValue (Token.ofChars text.toList) v := by
  have hform : ∀ j v, ofJson j = .ok v ↔ j = v.toJson := fun j v =>
    ofJson_eq_ok_iff.trans denotesValue_iff
  refine ⟨?_, ?_, fun _ _ => ofJson_eq_ok_iff, ?_⟩
  · intro j v
    rw [hform, untagged?_eq_some_iff]
  · intro text v
    simp only [hform, exists_eq_right, ofText_eq_ok_iff_json?, parse?, Option.map_eq_some_iff,
      canonical_eq_toJson_iff]
  · intro text v
    rw [ofText_eq_ok_iff_json?, json?_ofChars_iff_writesValue]

/-- At the bounds of the numbers that are values: the least integer is read. The first integer above
the greatest, a number with a fraction and a zero with a sign are trees that all readers refuse. -/
theorem readings_agree_bounds :
    let refused : List (String × Json) := [("9223372036854775808", .num (.int 9223372036854775808)),
      ("1.0", .num (.float ⟨false, 1 <<< 52, -52⟩)), ("-0", .num (.float (.zero true)))]
    ofText "-9223372036854775808" = .ok (.int Int64.minValue) ∧
      ∀ x ∈ refused, parse? x.1 = some x.2 ∧ untagged? x.2 = none ∧
        ∀ v, ofText x.1 ≠ .ok v ∧ ofJson x.2 ≠ .ok v := by
  intro refused
  obtain ⟨htrees, htexts, -, -⟩ := readings_agree
  have hleast : parse? "-9223372036854775808" = some (.num (.int Int64.minValue.toInt)) := by
    decide +kernel
  have hparse : ∀ x ∈ refused, parse? x.1 = some x.2 := by decide +kernel
  have htried : ∀ x ∈ refused, untagged? x.2 = none := by decide +kernel
  have hread : ∀ x ∈ refused, ∀ v, ofJson x.2 ≠ .ok v := by
    intro x hx v hv
    rw [htrees, htried x hx] at hv
    cases hv
  refine ⟨(htexts _ _).mpr ⟨_, hleast, by decide +kernel⟩, fun x hx => ?_⟩
  refine ⟨hparse x hx, htried x hx, fun v => ⟨fun htext => ?_, hread x hx v⟩⟩
  obtain ⟨j, hj, hv⟩ := (htexts x.1 v).mp htext
  rw [hparse x hx] at hj
  cases hj
  exact hread x hx v hv

end Value

end ComponentKinds
