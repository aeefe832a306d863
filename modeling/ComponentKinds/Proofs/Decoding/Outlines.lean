import ComponentKinds.Decoding.Text
import ComponentKinds.Proofs.Decoding.Once
import ComponentKinds.Proofs.Value.Denotation

/-!
# Reading the parts of an attribute from a text

A text is read by its outline, without a tree being made. Where the outline stands for a
tree, the strings, kinds and defaults that are read from it are those that the tree
denotes. Of a part that must not be read twice, the key must not occur twice either.
-/

namespace ComponentKinds.Json

/-- A part that is not read twice is settled: if it was read before, its key does not
occur, and otherwise its key occurs once at most. -/
def SettlesOnce {α : Type} (key : String) (Denotes : Json → α → Prop)
    (members : List (String × Json)) (before after : Option α) : Prop :=
  Settles key Denotes members before after ∧
    occurrences key members + before.toList.length ≤ 1

section SettlesOnce

variable {α : Type} {key : String} {Denotes : Json → α → Prop}

theorem settlesOnce_nil {before after : Option α} :
    SettlesOnce key Denotes [] before after ↔ after = before := by
  cases before <;> simp [SettlesOnce, occurrences]

/-- A member with another key leaves the part. -/
theorem settlesOnce_cons_of_ne {other : String} {j : Json} {rest : List (String × Json)}
    {before after : Option α} (h : key ≠ other) :
    SettlesOnce key Denotes ((other, j) :: rest) before after ↔
      SettlesOnce key Denotes rest before after := by
  simp [SettlesOnce, settles_cons_of_ne h, occurrences, Ne.symm h]

/-- A member with the key is the first one, and the part is not read after it. -/
theorem settlesOnce_cons_self {j : Json} {rest : List (String × Json)}
    {before after : Option α} :
    SettlesOnce key Denotes ((key, j) :: rest) before after ↔
      before = none ∧ ∃ x, Denotes j x ∧ SettlesOnce key Denotes rest (some x) after := by
  have hcount : occurrences key ((key, j) :: rest) = occurrences key rest + 1 := by
    simp [occurrences]
  have habsent : occurrences key rest = 0 → key ∉ rest.map Prod.fst :=
    List.count_eq_zero.mp
  unfold SettlesOnce
  rw [hcount]
  constructor
  · intro hread
    obtain ⟨hsettles, honce⟩ := hread
    have hrest : occurrences key rest = 0 := by omega
    have hbefore : before = none := by
      cases before with
      | none => rfl
      | some x => simp at honce
    obtain ⟨x, hx, hafter⟩ := (settles_cons_self (habsent hrest)).mp hsettles
    exact ⟨hbefore, x, hx, hafter, by simp [hrest]⟩
  · intro hdenotes
    obtain ⟨rfl, x, hx, hafter, honce⟩ := hdenotes
    have hrest : occurrences key rest = 0 := by simpa using honce
    refine ⟨(settles_cons_self (habsent hrest)).mpr ⟨x, hx, hafter⟩, ?_⟩
    simp [hrest]

/-- Of a part that was not read before, the key occurs once at most. -/
theorem settlesOnce_none_iff {members : List (String × Json)} {after : Option α} :
    SettlesOnce key Denotes members none after ↔
      Settles key Denotes members none after ∧ occurrences key members ≤ 1 := by
  simp [SettlesOnce]

end SettlesOnce

namespace Outline

variable {o : Outline} {j : Json} {depth : Nat}

theorem json?_eq_null_iff : o.json? depth = some .null ↔ o = .null := by
  cases o <;> simp [json?]

theorem json?_array_eq_some_iff {items : Items} :
    (Outline.array items).json? depth = some j ↔
      depth ≠ 0 ∧ ∃ trees, itemsJson? (depth - 1) items = some trees ∧ .arr trees = j := by
  cases depth <;> simp [json?]

theorem json?_object_eq_some_iff {members : Members} :
    (Outline.object members).json? depth = some j ↔
      depth ≠ 0 ∧ ∃ trees, membersJson? (depth - 1) members = some trees ∧ .obj trees = j := by
  cases depth <;> simp [json?]

theorem itemsJson?_item_eq_some_iff {head : Outline} {tail : Items} {trees : List Json} :
    itemsJson? depth (.item head tail) = some trees ↔ ∃ first rest,
      head.json? depth = some first ∧ itemsJson? depth tail = some rest ∧
      first :: rest = trees := by
  simp [itemsJson?, Option.bind_eq_some_iff]

theorem membersJson?_member_eq_some_iff {key value : Outline} {tail : Members}
    {trees : List (String × Json)} :
    membersJson? depth (.member key value tail) = some trees ↔ ∃ name first rest,
      key.key? = some name ∧ value.json? depth = some first ∧
      membersJson? depth tail = some rest ∧ (name, first) :: rest = trees := by
  simp [membersJson?, Option.bind_eq_some_iff]

theorem membersJson?_eq_nil_iff {members : Members} :
    membersJson? depth members = some [] ↔ members = .closed := by
  cases members <;> simp [membersJson?, Option.bind_eq_some_iff]

theorem lift_eq_ok_iff {α : Type} {x : Except DecodeFault α} {y : α} :
    lift x = .ok y ↔ x = .ok y := by
  cases x <;> simp [lift]

theorem decodeString_eq_ok_iff (h : o.json? depth = some j) {s : String} :
    o.decodeString = .ok s ↔ DenotesString j s := by
  cases o with
  | string pieces =>
    obtain ⟨text, htext, rfl⟩ := Option.map_eq_some_iff.mp h
    simp [decodeString, htext, DenotesString]
  | array items =>
    obtain ⟨_, trees, _, rfl⟩ := json?_array_eq_some_iff.mp h
    simp [decodeString, DenotesString]
  | object members =>
    obtain ⟨_, trees, _, rfl⟩ := json?_object_eq_some_iff.mp h
    simp [decodeString, DenotesString]
  | number numeral =>
    obtain ⟨n, _, rfl⟩ := Option.map_eq_some_iff.mp h
    simp [decodeString, DenotesString]
  | _ => simp_all [json?, decodeString, DenotesString, eq_comm]

theorem decodeToken_eq_ok_iff (h : o.json? depth = some j) {k : ValueKind} :
    o.decodeToken = .ok k ↔ DenotesString j k.token := by
  rw [← decodeString_eq_ok_iff h, decodeToken, bind_eq_ok_iff]
  constructor
  · intro hok
    obtain ⟨token, htoken, hkind⟩ := hok
    split at hkind
    · next hfound =>
      cases hkind
      rw [htoken, ofToken_eq_ok_iff.mp hfound]
    · cases hkind
  · intro hok
    refine ⟨k.token, hok, ?_⟩
    rw [ofToken_eq_ok_iff.mpr rfl]
    rfl

/-- The only member of an object is a kind exactly if its key is the token and null stands
there. -/
theorem decodeKindMember_eq_ok_iff {members : Members} {k : ValueKind} :
    decodeKindMember members = .ok k ↔ ∃ pieces, members = .member (.string pieces) .null .closed ∧
      decodeToken (.string pieces) = .ok k := by
  constructor
  · intro h
    unfold decodeKindMember at h
    split at h
    · next pieces value tail =>
      obtain ⟨k', hk', hrest⟩ := bind_eq_ok_iff.mp h
      clear h
      split at hrest
      · cases hrest
        exact ⟨pieces, rfl, hk'⟩
      · cases hrest
      · cases hrest
    · cases h
    · cases h
  · intro h
    obtain ⟨pieces, rfl, hk⟩ := h
    exact bind_eq_ok_iff.mpr ⟨k, hk, rfl⟩

/-- The members of an object are those of a kind exactly if the only one has the token as
its key and null as its value. -/
theorem decodeKindMember_eq_ok_iff_of_json? {members : Members} {trees : List (String × Json)}
    (h : membersJson? depth members = some trees) {k : ValueKind} :
    decodeKindMember members = .ok k ↔ trees = [(k.token, .null)] := by
  rw [decodeKindMember_eq_ok_iff]
  constructor
  · intro hok
    obtain ⟨pieces, rfl, hk⟩ := hok
    obtain ⟨name, first, rest, hkey, hvalue, htail, rfl⟩ := membersJson?_member_eq_some_iff.mp h
    have hname : (Outline.string pieces).json? depth = some (.str name) := by
      rw [json?, show Piece.string? pieces = some name from hkey]
      rfl
    rw [Json.str.inj ((decodeToken_eq_ok_iff hname).mp hk)]
    cases hvalue
    cases htail
    rfl
  · intro heq
    subst heq
    cases members with
    | closed => cases h
    | broken => cases h
    | member key value tail =>
      obtain ⟨name, first, rest, hkey, hvalue, htail, heq⟩ :=
        membersJson?_member_eq_some_iff.mp h
      cases heq
      rw [json?_eq_null_iff.mp hvalue, membersJson?_eq_nil_iff.mp htail]
      cases key with
      | string pieces =>
        have hname : (Outline.string pieces).json? depth = some (.str k.token) := by
          rw [json?, show Piece.string? pieces = some k.token from hkey]
          rfl
        exact ⟨pieces, rfl, (decodeToken_eq_ok_iff hname).mpr rfl⟩
      | _ => cases hkey

theorem decodeKind_eq_ok_iff (h : o.json? depth = some j) {k : ValueKind} :
    o.decodeKind = .ok k ↔ DenotesKind j k := by
  cases o with
  | string pieces =>
    obtain ⟨text, _, rfl⟩ := Option.map_eq_some_iff.mp h
    rw [decodeKind, decodeToken_eq_ok_iff h]
    constructor
    · rintro ⟨⟩
      exact .token k
    · rintro ⟨⟩
      rfl
  | object members =>
    obtain ⟨_, trees, hmembers, rfl⟩ := json?_object_eq_some_iff.mp h
    rw [decodeKind, decodeKindMember_eq_ok_iff_of_json? hmembers, denotesKind_obj_iff]
  | array items =>
    obtain ⟨_, trees, _, rfl⟩ := json?_array_eq_some_iff.mp h
    exact ⟨nofun, nofun⟩
  | number numeral =>
    obtain ⟨n, _, rfl⟩ := Option.map_eq_some_iff.mp h
    exact ⟨nofun, nofun⟩
  | broken => cases h
  | _ =>
    cases h
    exact ⟨nofun, nofun⟩

/-- An outline is read as a value exactly if its tree is the form of the value. -/
theorem decodeValue_eq_ok_iff {depth : Nat} {v : Value} :
    o.decodeValue depth = .ok v ↔ o.json? depth = some v.toJson := by
  unfold decodeValue
  cases o.json? depth with
  | none => simp
  | some j =>
    rw [Option.some.injEq, ← Value.untagged?_eq_some_iff]
    cases hvalue : Value.untagged? j <;> simp [hvalue]

theorem decodeDefault_eq_ok_iff (h : o.json? defaultDepth = some j) {default? : Option Value} :
    o.decodeDefault = .ok default? ↔ DenotesDefault j default? := by
  by_cases hnull : o = .null
  · subst hnull
    cases h
    rw [← Json.decodeDefault_eq_ok_iff]
    simp [decodeDefault, Json.decodeDefault]
  · have hne : j ≠ .null := by
      rintro rfl
      exact hnull (json?_eq_null_iff.mp h)
    have htext : o.decodeDefault = (o.decodeValue defaultDepth).map some := by
      cases o <;> first | rfl | exact absurd rfl hnull
    rw [htext, map_eq_ok_iff, denotesDefault_iff_toJson]
    simp only [decodeValue_eq_ok_iff, h, hne, Option.some.injEq, false_and, false_or,
      eq_comm (a := default?)]

end Outline

end ComponentKinds.Json
