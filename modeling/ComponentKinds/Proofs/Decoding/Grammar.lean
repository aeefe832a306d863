import ComponentKinds.Decoding.Tree
import ComponentKinds.Proofs.Except
import ComponentKinds.Proofs.Json.Canonical
import ComponentKinds.Proofs.Value.Forms
import Mathlib.Data.List.Forall2

/-!
# What the trees of schemas denote

A kind is denoted by its token or by an object whose only member has the token as its key
and null as its value. Attributes and declarations are denoted by an object, in which only
the members with the keys of their parts count, or by an array of the parts. Reading a
canonical tree succeeds exactly with what it denotes.
-/

namespace ComponentKinds

attribute [ext] Attribute.Parts Schema.Parts

namespace Json

/-- The trees of a kind. -/
inductive DenotesKind : Json → ValueKind → Prop
  | token (k : ValueKind) : DenotesKind (.str k.token) k
  | object (k : ValueKind) : DenotesKind (.obj [(k.token, .null)]) k

/-- The trees of a default that is written out; null is none. -/
inductive DenotesDefault : Json → Option Value → Prop
  | null : DenotesDefault .null none
  | value (v : Value) : DenotesDefault v.toJson (some v)

/-- A default that may be left out. -/
inductive DenotesOptional : Option Json → Option Value → Prop
  | absent : DenotesOptional none none
  | present {j : Json} {default? : Option Value} (h : DenotesDefault j default?) :
      DenotesOptional (some j) default?

/-- The trees of an attribute. -/
inductive DenotesAttribute : Json → Attribute → Prop
  | object {members : List (String × Json)} {name : String} {j : Json} {kind : ValueKind}
      {default? : Option Value} (hname : Entries.find? "name" members = some (.str name))
      (hfound : Entries.find? "kind" members = some j) (hkind : DenotesKind j kind)
      (hdefault : DenotesOptional (Entries.find? "default" members) default?) :
      DenotesAttribute (.obj members) ⟨name, kind, default?⟩
  | array {name : String} {j : Json} {third : Option Json} {kind : ValueKind}
      {default? : Option Value} (hkind : DenotesKind j kind)
      (hdefault : DenotesOptional third default?) :
      DenotesAttribute (.arr (.str name :: j :: third.toList)) ⟨name, kind, default?⟩

/-- The trees of a declaration: a name, and the attributes in the order of their array. -/
inductive DenotesDeclaration : Json → Schema.Declaration → Prop
  | object {members : List (String × Json)} {name : String} {items : List Json}
      {attributes : List Attribute} (hname : Entries.find? "name" members = some (.str name))
      (hoptions : Entries.find? "options" members = some (.arr items))
      (hattributes : List.Forall₂ DenotesAttribute items attributes) :
      DenotesDeclaration (.obj members) (name, attributes)
  | array {name : String} {items : List Json} {attributes : List Attribute}
      (hattributes : List.Forall₂ DenotesAttribute items attributes) :
      DenotesDeclaration (.arr [.str name, .arr items]) (name, attributes)

/-- What a part was read as before some members, and what it is read as after them: where
its key occurs, what stands there is read, and otherwise it is left. -/
def Settles {α : Type} (key : String) (Denotes : Json → α → Prop)
    (members : List (String × Json)) (before after : Option α) : Prop :=
  match Entries.find? key members with
  | none => after = before
  | some j => ∃ x, Denotes j x ∧ after = some x

section Settles

variable {α : Type} {key : String} {Denotes : Json → α → Prop}

@[simp] theorem settles_nil {before after : Option α} :
    Settles key Denotes [] before after ↔ after = before := Iff.rfl

/-- A member with another key leaves the part. -/
theorem settles_cons_of_ne {other : String} {j : Json} {rest : List (String × Json)}
    {before after : Option α} (h : key ≠ other) :
    Settles key Denotes ((other, j) :: rest) before after ↔
      Settles key Denotes rest before after := by
  simp [Settles, Entries.find?, h]

/-- The only member with the key settles the part. -/
theorem settles_cons_self {j : Json} {rest : List (String × Json)} {before after : Option α}
    (h : key ∉ rest.map Prod.fst) :
    Settles key Denotes ((key, j) :: rest) before after ↔
      ∃ x, Denotes j x ∧ Settles key Denotes rest (some x) after := by
  have hnone : Entries.find? key rest = none := by
    rw [← Option.not_isSome_iff_eq_none, Entries.find?_isSome_iff]
    exact h
  simp [Settles, Entries.find?, hnone]

/-- A part that was not read before is read exactly if its key occurs. -/
theorem settles_none_iff {members : List (String × Json)} {x : α} :
    Settles key Denotes members none (some x) ↔
      ∃ j, Entries.find? key members = some j ∧ Denotes j x := by
  unfold Settles
  cases Entries.find? key members <;> simp [eq_comm]

end Settles

/-- The string that a tree is. -/
def DenotesString (j : Json) (s : String) : Prop := j = .str s

/-- The attributes of an array. -/
def DenotesAttributes (j : Json) (attributes : List Attribute) : Prop :=
  ∃ items, j = .arr items ∧ List.Forall₂ DenotesAttribute items attributes

theorem decodeString_eq_ok_iff {j : Json} {s : String} :
    j.decodeString = .ok s ↔ DenotesString j s := by
  cases j <;> simp [decodeString, DenotesString]

/-- A token is accepted exactly if it is that of the kind. -/
theorem ofToken_eq_ok_iff {token : String} {k : ValueKind} :
    ValueKind.ofToken token = .ok k ↔ token = k.token := by
  unfold ValueKind.ofToken
  constructor
  · intro h
    split at h
    · next hfound =>
      cases h
      exact ValueKind.eq_token_of_ofToken? hfound
    · cases h
  · rintro rfl
    rw [ValueKind.ofToken?_token]

/-- An object denotes a kind exactly if its only member has the token and null. -/
theorem denotesKind_obj_iff {members : List (String × Json)} {k : ValueKind} :
    DenotesKind (.obj members) k ↔ members = [(k.token, .null)] := by
  constructor
  · intro h
    cases h
    rfl
  · intro h
    subst h
    exact .object k

theorem decodeKind_eq_ok_iff {j : Json} {k : ValueKind} :
    j.decodeKind = .ok k ↔ DenotesKind j k := by
  constructor
  · intro h
    unfold decodeKind at h
    split at h
    · cases ofToken_eq_ok_iff.mp h
      exact .token k
    · obtain ⟨k', hk', hpayload⟩ := bind_eq_ok_iff.mp h
      clear h
      cases ofToken_eq_ok_iff.mp hk'
      split at hpayload
      · cases hpayload
        exact .object k
      · cases hpayload
    · cases h
    · cases h
  · rintro (⟨⟩ | ⟨⟩)
    · exact ofToken_eq_ok_iff.mpr rfl
    · exact bind_eq_ok_iff.mpr ⟨k, ofToken_eq_ok_iff.mpr rfl, rfl⟩

/-- A default is denoted by the form of its value, and a missing one by null. -/
theorem denotesDefault_iff_toJson {j : Json} {default? : Option Value} :
    DenotesDefault j default? ↔
      (j = .null ∧ default? = none) ∨ ∃ v, j = v.toJson ∧ default? = some v := by
  constructor
  · rintro (⟨⟩ | ⟨v⟩)
    · exact Or.inl ⟨rfl, rfl⟩
    · exact Or.inr ⟨v, rfl, rfl⟩
  · rintro (⟨rfl, rfl⟩ | ⟨v, rfl, rfl⟩)
    · exact .null
    · exact .value v

theorem decodeDefault_eq_ok_iff {j : Json} {default? : Option Value} :
    j.decodeDefault = .ok default? ↔ DenotesDefault j default? := by
  constructor
  · intro h
    unfold decodeDefault at h
    split at h
    · cases h
      exact .null
    · split at h
      · next hvalue =>
        cases h
        rw [Value.untagged?_eq_some_iff.mp hvalue]
        exact .value _
      · cases h
  · rintro (⟨⟩ | ⟨v⟩)
    · rfl
    · have hvalue : Value.untagged? v.toJson = some v := Value.untagged?_eq_some_iff.mpr rfl
      unfold decodeDefault
      split
      · next hnull => cases v <;> cases hnull
      · rw [hvalue]

/-- Members whose keys do not repeat settle each part of an attribute by its key. -/
theorem attributeParts_eq_ok_iff {members : List (String × Json)}
    (hnodup : (members.map Prod.fst).Nodup) {parts result : Attribute.Parts} :
    attributeParts parts members = .ok result ↔
      Settles "name" DenotesString members parts.name? result.name? ∧
      Settles "kind" DenotesKind members parts.kind? result.kind? ∧
      Settles "default" DenotesDefault members parts.default? result.default? := by
  induction members generalizing parts with
  | nil =>
    obtain ⟨name?, kind?, default?⟩ := result
    simp [attributeParts, Attribute.Parts.ext_iff, eq_comm]
  | cons member rest ih =>
    obtain ⟨key, value⟩ := member
    rw [List.map_cons, List.nodup_cons] at hnodup
    obtain ⟨hnew, hrest⟩ := hnodup
    unfold attributeParts
    by_cases hname : key = "name"
    · subst hname
      rw [if_pos rfl, bind_eq_ok_iff, settles_cons_self hnew,
        settles_cons_of_ne (by decide), settles_cons_of_ne (by decide)]
      simp only [decodeString_eq_ok_iff, ih hrest]
      constructor
      · intro hread
        obtain ⟨x, hx, hsettles, hothers⟩ := hread
        exact ⟨⟨x, hx, hsettles⟩, hothers⟩
      · intro hdenotes
        obtain ⟨⟨x, hx, hsettles⟩, hothers⟩ := hdenotes
        exact ⟨x, hx, hsettles, hothers⟩
    by_cases hkind : key = "kind"
    · subst hkind
      rw [if_neg (by decide), if_pos rfl, bind_eq_ok_iff, settles_cons_self hnew,
        settles_cons_of_ne (by decide), settles_cons_of_ne (by decide)]
      simp only [decodeKind_eq_ok_iff, ih hrest]
      constructor
      · intro hread
        obtain ⟨x, hx, hbefore, hsettles, hafter⟩ := hread
        exact ⟨hbefore, ⟨x, hx, hsettles⟩, hafter⟩
      · intro hdenotes
        obtain ⟨hbefore, ⟨x, hx, hsettles⟩, hafter⟩ := hdenotes
        exact ⟨x, hx, hbefore, hsettles, hafter⟩
    by_cases hdefault : key = "default"
    · subst hdefault
      rw [if_neg (by decide), if_neg (by decide), if_pos rfl, bind_eq_ok_iff,
        settles_cons_self hnew, settles_cons_of_ne (by decide), settles_cons_of_ne (by decide)]
      simp only [decodeDefault_eq_ok_iff, ih hrest]
      constructor
      · intro hread
        obtain ⟨x, hx, hname, hkind, hsettles⟩ := hread
        exact ⟨hname, hkind, x, hx, hsettles⟩
      · intro hdenotes
        obtain ⟨hname, hkind, x, hx, hsettles⟩ := hdenotes
        exact ⟨x, hx, hname, hkind, hsettles⟩
    · rw [if_neg hname, if_neg hkind, if_neg hdefault, ih hrest,
        settles_cons_of_ne (Ne.symm hname), settles_cons_of_ne (Ne.symm hkind),
        settles_cons_of_ne (Ne.symm hdefault)]

/-- An attribute has a name and a kind; a default that was not read is absent. -/
theorem assembleAttribute_eq_ok_iff {parts : Attribute.Parts} {a : Attribute} :
    parts.assemble = .ok a ↔ parts.name? = some a.name ∧ parts.kind? = some a.kind ∧
      parts.default?.getD none = a.default? := by
  obtain ⟨name?, kind?, default?⟩ := parts
  obtain ⟨name, kind, fallback⟩ := a
  cases name? <;> cases kind? <;> simp [Attribute.Parts.assemble]

/-- An object denotes an attribute exactly if its members settle the parts of it. -/
theorem denotesAttribute_obj_iff {members : List (String × Json)} {a : Attribute} :
    DenotesAttribute (.obj members) a ↔ ∃ parts : Attribute.Parts,
      (Settles "name" DenotesString members none parts.name? ∧
        Settles "kind" DenotesKind members none parts.kind? ∧
        Settles "default" DenotesDefault members none parts.default?) ∧
      parts.assemble = .ok a := by
  constructor
  · intro h
    cases h with
    | @object _ name j kind default? hname hfound hkind hdefault =>
      cases hoptional : Entries.find? "default" members with
      | none =>
        rw [hoptional] at hdefault
        cases hdefault
        refine ⟨⟨some name, some kind, none⟩, ⟨?_, ?_, ?_⟩, rfl⟩
        · exact settles_none_iff.mpr ⟨_, hname, rfl⟩
        · exact settles_none_iff.mpr ⟨_, hfound, hkind⟩
        · simp [Settles, hoptional]
      | some d =>
        rw [hoptional] at hdefault
        cases hdefault with
        | present hd =>
          refine ⟨⟨some name, some kind, some default?⟩, ⟨?_, ?_, ?_⟩, rfl⟩
          · exact settles_none_iff.mpr ⟨_, hname, rfl⟩
          · exact settles_none_iff.mpr ⟨_, hfound, hkind⟩
          · exact settles_none_iff.mpr ⟨_, hoptional, hd⟩
  · intro hdenotes
    obtain ⟨⟨name?, kind?, default?⟩, ⟨hname, hkind, hdefault⟩, hassemble⟩ := hdenotes
    obtain ⟨rfl, rfl, hfallback⟩ := assembleAttribute_eq_ok_iff.mp hassemble
    obtain ⟨_, hname, rfl⟩ := settles_none_iff.mp hname
    obtain ⟨j, hfound, hkind⟩ := settles_none_iff.mp hkind
    refine .object hname hfound hkind ?_
    rw [← hfallback]
    unfold Settles at hdefault
    cases hoptional : Entries.find? "default" members with
    | none =>
      rw [hoptional] at hdefault
      cases hdefault
      exact .absent
    | some d =>
      rw [hoptional] at hdefault
      obtain ⟨_, hd, rfl⟩ := hdefault
      exact .present hd

/-- The array of an attribute has a name, a kind, and possibly a default. -/
theorem denotesAttribute_arr_iff {items : List Json} {a : Attribute} :
    DenotesAttribute (.arr items) a ↔ ∃ j third, items = .str a.name :: j :: third.toList ∧
      DenotesKind j a.kind ∧ DenotesOptional third a.default? := by
  constructor
  · intro h
    cases h with
    | array hkind hdefault => exact ⟨_, _, rfl, hkind, hdefault⟩
  · intro hdenotes
    obtain ⟨j, third, rfl, hkind, hdefault⟩ := hdenotes
    exact .array hkind hdefault

theorem attributeOfItems_eq_ok_iff {items : List Json} {a : Attribute} :
    attributeOfItems items = .ok a ↔ DenotesAttribute (.arr items) a := by
  constructor
  · intro h
    match items with
    | [] => cases h
    | [first] =>
      obtain ⟨_, _, h⟩ := bind_eq_ok_iff.mp h
      cases h
    | [first, second] =>
      obtain ⟨name, hname, h⟩ := bind_eq_ok_iff.mp h
      obtain ⟨kind, hkind, h⟩ := bind_eq_ok_iff.mp h
      cases h
      cases decodeString_eq_ok_iff.mp hname
      exact denotesAttribute_arr_iff.mpr
        ⟨second, none, rfl, decodeKind_eq_ok_iff.mp hkind, .absent⟩
    | [first, second, third] =>
      obtain ⟨name, hname, h⟩ := bind_eq_ok_iff.mp h
      obtain ⟨kind, hkind, h⟩ := bind_eq_ok_iff.mp h
      obtain ⟨fallback, hfallback, h⟩ := bind_eq_ok_iff.mp h
      cases h
      cases decodeString_eq_ok_iff.mp hname
      exact denotesAttribute_arr_iff.mpr ⟨second, some third, rfl,
        decodeKind_eq_ok_iff.mp hkind, .present (decodeDefault_eq_ok_iff.mp hfallback)⟩
    | first :: second :: third :: fourth :: rest =>
      obtain ⟨_, _, h⟩ := bind_eq_ok_iff.mp h
      obtain ⟨_, _, h⟩ := bind_eq_ok_iff.mp h
      obtain ⟨_, _, h⟩ := bind_eq_ok_iff.mp h
      cases h
  · rintro (_ | @⟨name, j, third, kind, _, hkind, hdefault⟩)
    refine bind_eq_ok_iff.mpr ⟨name, rfl, ?_⟩
    refine bind_eq_ok_iff.mpr ⟨kind, decodeKind_eq_ok_iff.mpr hkind, ?_⟩
    cases hdefault with
    | absent => rfl
    | present hd => exact bind_eq_ok_iff.mpr ⟨_, decodeDefault_eq_ok_iff.mpr hd, rfl⟩

/-- A canonical tree is read as the attribute that it denotes. -/
theorem decodeAttribute_eq_ok_iff {j : Json} (h : j.Canonical) {a : Attribute} :
    j.decodeAttribute = .ok a ↔ DenotesAttribute j a := by
  cases j with
  | obj members =>
    have hnodup := (canonical_obj_iff.mp h).1.nodup
    rw [denotesAttribute_obj_iff]
    simp only [decodeAttribute, bind_eq_ok_iff, attributeParts_eq_ok_iff hnodup]
  | arr items => exact attributeOfItems_eq_ok_iff
  | _ => exact ⟨nofun, nofun⟩

/-- Canonical items are read as the attributes that they denote one by one. -/
theorem attributeItems_eq_ok_iff {items : List Json} (h : ∀ item ∈ items, item.Canonical)
    {attributes : List Attribute} :
    attributeItems items = .ok attributes ↔ List.Forall₂ DenotesAttribute items attributes := by
  induction items generalizing attributes with
  | nil =>
    rw [List.forall₂_nil_left_iff]
    exact ⟨fun heq => (Except.ok.inj heq).symm, fun heq => heq ▸ rfl⟩
  | cons item rest ih =>
    have hitem := h item List.mem_cons_self
    have hrest : ∀ other ∈ rest, other.Canonical := fun other hmem =>
      h other (List.mem_cons_of_mem _ hmem)
    rw [List.forall₂_cons_left_iff, attributeItems]
    simp only [bind_eq_ok_iff, decodeAttribute_eq_ok_iff hitem, ih hrest]
    constructor
    · intro hread
      obtain ⟨a, ha, others, hothers, ⟨⟩⟩ := hread
      exact ⟨a, others, ha, hothers, rfl⟩
    · intro hdenotes
      obtain ⟨a, others, ha, hothers, rfl⟩ := hdenotes
      exact ⟨a, ha, others, hothers, rfl⟩

theorem decodeAttributes_eq_ok_iff {j : Json} (h : j.Canonical) {attributes : List Attribute} :
    j.decodeAttributes = .ok attributes ↔ DenotesAttributes j attributes := by
  cases j with
  | arr items =>
    rw [DenotesAttributes, decodeAttributes, attributeItems_eq_ok_iff (canonical_arr_iff.mp h)]
    simp
  | _ => simp [decodeAttributes, DenotesAttributes]

/-- Members whose keys do not repeat settle each part of a schema by its key. -/
theorem schemaParts_eq_ok_iff {members : List (String × Json)} (h : (obj members).Canonical)
    {parts result : Schema.Parts} :
    schemaParts parts members = .ok result ↔
      Settles "name" DenotesString members parts.name? result.name? ∧
      Settles "options" DenotesAttributes members parts.options? result.options? := by
  obtain ⟨hsorted, hvalues⟩ := canonical_obj_iff.mp h
  have hnodup := hsorted.nodup
  clear h hsorted
  induction members generalizing parts with
  | nil =>
    obtain ⟨name?, options?⟩ := result
    simp [schemaParts, Schema.Parts.ext_iff, eq_comm]
  | cons member rest ih =>
    obtain ⟨key, value⟩ := member
    rw [List.map_cons, List.nodup_cons] at hnodup
    obtain ⟨hnew, hrest⟩ := hnodup
    have hvalue : value.Canonical := hvalues (key, value) List.mem_cons_self
    have hvalues' : ∀ other ∈ rest, other.2.Canonical := fun other hmem =>
      hvalues other (List.mem_cons_of_mem _ hmem)
    unfold schemaParts
    by_cases hname : key = "name"
    · subst hname
      rw [if_pos rfl, bind_eq_ok_iff, settles_cons_self hnew, settles_cons_of_ne (by decide)]
      simp only [decodeString_eq_ok_iff, ih hvalues' hrest]
      constructor
      · intro hread
        obtain ⟨x, hx, hsettles, hother⟩ := hread
        exact ⟨⟨x, hx, hsettles⟩, hother⟩
      · intro hdenotes
        obtain ⟨⟨x, hx, hsettles⟩, hother⟩ := hdenotes
        exact ⟨x, hx, hsettles, hother⟩
    by_cases hoptions : key = "options"
    · subst hoptions
      rw [if_neg (by decide), if_pos rfl, bind_eq_ok_iff, settles_cons_self hnew,
        settles_cons_of_ne (by decide)]
      simp only [decodeAttributes_eq_ok_iff hvalue, ih hvalues' hrest]
      constructor
      · intro hread
        obtain ⟨x, hx, hother, hsettles⟩ := hread
        exact ⟨hother, x, hx, hsettles⟩
      · intro hdenotes
        obtain ⟨hother, x, hx, hsettles⟩ := hdenotes
        exact ⟨x, hx, hother, hsettles⟩
    · rw [if_neg hname, if_neg hoptions, settles_cons_of_ne (Ne.symm hname),
        settles_cons_of_ne (Ne.symm hoptions)]
      exact ih hvalues' hrest

/-- A declaration has a name and a list of attributes. -/
theorem assembleDeclaration_eq_ok_iff {parts : Schema.Parts} {d : Schema.Declaration} :
    parts.assemble = .ok d ↔ parts.name? = some d.1 ∧ parts.options? = some d.2 := by
  obtain ⟨name?, options?⟩ := parts
  obtain ⟨name, attributes⟩ := d
  cases name? <;> cases options? <;> simp [Schema.Parts.assemble]

/-- An object denotes a declaration exactly if its members settle both parts of it. -/
theorem denotesDeclaration_obj_iff {members : List (String × Json)} {d : Schema.Declaration} :
    DenotesDeclaration (.obj members) d ↔ ∃ parts : Schema.Parts,
      (Settles "name" DenotesString members none parts.name? ∧
        Settles "options" DenotesAttributes members none parts.options?) ∧
      parts.assemble = .ok d := by
  constructor
  · intro h
    cases h with
    | @object _ name items attributes hname hoptions hattributes =>
      refine ⟨⟨some name, some attributes⟩, ⟨?_, ?_⟩, rfl⟩
      · exact settles_none_iff.mpr ⟨_, hname, rfl⟩
      · exact settles_none_iff.mpr ⟨_, hoptions, items, rfl, hattributes⟩
  · intro hdenotes
    obtain ⟨⟨name?, options?⟩, ⟨hname, hoptions⟩, hassemble⟩ := hdenotes
    obtain ⟨rfl, rfl⟩ := assembleDeclaration_eq_ok_iff.mp hassemble
    obtain ⟨_, hname, rfl⟩ := settles_none_iff.mp hname
    obtain ⟨_, hoptions, items, rfl, hattributes⟩ := settles_none_iff.mp hoptions
    exact .object hname hoptions hattributes

/-- The array of a declaration has a name and an array of attributes. -/
theorem denotesDeclaration_arr_iff {items : List Json} {d : Schema.Declaration} :
    DenotesDeclaration (.arr items) d ↔
      ∃ options, items = [.str d.1, options] ∧ DenotesAttributes options d.2 := by
  constructor
  · intro h
    cases h with
    | array hattributes => exact ⟨_, rfl, _, rfl, hattributes⟩
  · obtain ⟨name, attributes⟩ := d
    rintro ⟨options, rfl, items, rfl, hattributes⟩
    exact .array hattributes

theorem declarationOfItems_eq_ok_iff {items : List Json} (h : ∀ item ∈ items, item.Canonical)
    {d : Schema.Declaration} :
    declarationOfItems items = .ok d ↔ DenotesDeclaration (.arr items) d := by
  constructor
  · intro hok
    match items with
    | [] => cases hok
    | [first] =>
      obtain ⟨_, _, hok⟩ := bind_eq_ok_iff.mp hok
      cases hok
    | [first, second] =>
      obtain ⟨name, hname, hok⟩ := bind_eq_ok_iff.mp hok
      obtain ⟨options, hoptions, hok⟩ := bind_eq_ok_iff.mp hok
      cases hok
      cases decodeString_eq_ok_iff.mp hname
      obtain ⟨items, rfl, hattributes⟩ :=
        (decodeAttributes_eq_ok_iff (h second (by simp))).mp hoptions
      exact .array hattributes
    | first :: second :: third :: rest =>
      obtain ⟨_, _, hok⟩ := bind_eq_ok_iff.mp hok
      obtain ⟨_, _, hok⟩ := bind_eq_ok_iff.mp hok
      cases hok
  · rintro (_ | @⟨name, items, attributes, hattributes⟩)
    have hoptions : DenotesAttributes (.arr items) attributes := ⟨items, rfl, hattributes⟩
    refine bind_eq_ok_iff.mpr ⟨name, rfl, ?_⟩
    refine bind_eq_ok_iff.mpr ⟨attributes, ?_, rfl⟩
    exact (decodeAttributes_eq_ok_iff (h _ (by simp))).mpr hoptions

/-- A canonical tree is read as the declaration that it denotes. -/
theorem decodeDeclaration_eq_ok_iff {j : Json} (h : j.Canonical) {d : Schema.Declaration} :
    j.decodeDeclaration = .ok d ↔ DenotesDeclaration j d := by
  cases j with
  | obj members =>
    rw [denotesDeclaration_obj_iff]
    simp only [decodeDeclaration, bind_eq_ok_iff, schemaParts_eq_ok_iff h]
  | arr items => exact declarationOfItems_eq_ok_iff (canonical_arr_iff.mp h)
  | _ => exact ⟨nofun, nofun⟩

end Json

/-- A canonical tree is read as the schema of the declaration that it denotes. -/
theorem Schema.ofJson_eq_ok_iff {j : Json} (h : j.Canonical) {s : Schema} :
    Schema.ofJson j = .ok s ↔
      ∃ d, Json.DenotesDeclaration j d ∧ Schema.ofDeclaration d = .ok s := by
  simp only [Schema.ofJson, Json.decodeSchema, bind_eq_ok_iff, Json.decodeDeclaration_eq_ok_iff h]

end ComponentKinds
