import ComponentKinds.Proofs.Decoding.Outlines

/-!
# Reading a text and reading its tree

A schema is read from a text from left to right, without its tree being made. It is read
exactly if the tree of the text, as it is written, denotes it and repeats no part of what
is read. Hence the text and the canonical tree of the text are read as the same schema,
unless an object of the text that is read repeats a member that is read.
-/

namespace ComponentKinds

namespace Json

namespace Outline

variable {o : Outline} {j : Json}

/-- A part is read exactly if it was not read before and can be read. -/
private theorem readOnce_eq_ok_iff {α β : Type} {before : Option α} {fault : TextFault}
    {read : Except TextFault α} {next : α → Except TextFault β} {y : β} :
    (if before.isSome then .error fault else read >>= next) = .ok y ↔
      before = none ∧ ∃ x, read = .ok x ∧ next x = .ok y := by
  cases before with
  | none => simpa using bind_eq_ok_iff
  | some x => exact ⟨nofun, nofun⟩

/-- The members of an object settle each part of an attribute once. -/
theorem attributeParts_eq_ok_iff {members : Members} {trees : List (String × Json)}
    (h : membersJson? defaultDepth members = some trees) {parts result : Attribute.Parts} :
    attributeParts parts members = .ok result ↔
      SettlesOnce "name" DenotesString trees parts.name? result.name? ∧
      SettlesOnce "kind" DenotesKind trees parts.kind? result.kind? ∧
      SettlesOnce "default" DenotesDefault trees parts.default? result.default? := by
  match members with
  | .closed =>
    cases h
    obtain ⟨name?, kind?, default?⟩ := result
    simp [attributeParts, settlesOnce_nil, Attribute.Parts.ext_iff, eq_comm]
  | .broken => cases h
  | .member key value tail =>
    obtain ⟨name, first, rest, hkey, hvalue, htail, rfl⟩ := membersJson?_member_eq_some_iff.mp h
    have ih : ∀ parts : Attribute.Parts, attributeParts parts tail = .ok result ↔
        SettlesOnce "name" DenotesString rest parts.name? result.name? ∧
        SettlesOnce "kind" DenotesKind rest parts.kind? result.kind? ∧
        SettlesOnce "default" DenotesDefault rest parts.default? result.default? :=
      fun _ => attributeParts_eq_ok_iff htail
    rw [attributeParts, hkey]
    by_cases hname : name = "name"
    · subst hname
      rw [settlesOnce_cons_self, settlesOnce_cons_of_ne (by decide),
        settlesOnce_cons_of_ne (by decide)]
      simp only [if_pos, readOnce_eq_ok_iff, decodeString_eq_ok_iff hvalue, ih]
      constructor
      · intro hread
        obtain ⟨hnew, x, hx, hsettles, hothers⟩ := hread
        exact ⟨⟨hnew, x, hx, hsettles⟩, hothers⟩
      · intro hdenotes
        obtain ⟨⟨hnew, x, hx, hsettles⟩, hothers⟩ := hdenotes
        exact ⟨hnew, x, hx, hsettles, hothers⟩
    by_cases hkind : name = "kind"
    · subst hkind
      rw [settlesOnce_cons_self, settlesOnce_cons_of_ne (by decide),
        settlesOnce_cons_of_ne (by decide)]
      simp only [if_neg hname, if_pos, readOnce_eq_ok_iff, decodeKind_eq_ok_iff hvalue, ih]
      constructor
      · intro hread
        obtain ⟨hnew, x, hx, hbefore, hsettles, hafter⟩ := hread
        exact ⟨hbefore, ⟨hnew, x, hx, hsettles⟩, hafter⟩
      · intro hdenotes
        obtain ⟨hbefore, ⟨hnew, x, hx, hsettles⟩, hafter⟩ := hdenotes
        exact ⟨hnew, x, hx, hbefore, hsettles, hafter⟩
    by_cases hdefault : name = "default"
    · subst hdefault
      rw [settlesOnce_cons_self, settlesOnce_cons_of_ne (by decide),
        settlesOnce_cons_of_ne (by decide)]
      simp only [if_neg hname, if_neg hkind, if_pos, readOnce_eq_ok_iff,
        decodeDefault_eq_ok_iff hvalue, ih]
      constructor
      · intro hread
        obtain ⟨hnew, x, hx, hname, hkind, hsettles⟩ := hread
        exact ⟨hname, hkind, hnew, x, hx, hsettles⟩
      · intro hdenotes
        obtain ⟨hname, hkind, hnew, x, hx, hsettles⟩ := hdenotes
        exact ⟨hnew, x, hx, hname, hkind, hsettles⟩
    · rw [settlesOnce_cons_of_ne (Ne.symm hname), settlesOnce_cons_of_ne (Ne.symm hkind),
        settlesOnce_cons_of_ne (Ne.symm hdefault)]
      simp only [if_neg hname, if_neg hkind, if_neg hdefault, ih]

/-- The array of an attribute is read item by item, as its tree is. -/
theorem attributeOfItems_eq_ok_iff {items : Items} {trees : List Json}
    (h : itemsJson? defaultDepth items = some trees) {a : Attribute} :
    attributeOfItems items = .ok a ↔ DenotesAttribute (.arr trees) a := by
  rw [← Json.attributeOfItems_eq_ok_iff]
  cases items with
  | closed =>
    cases h
    constructor <;> rintro ⟨⟩
  | broken => cases h
  | item first tail =>
    obtain ⟨j, rest, hfirst, htail, rfl⟩ := itemsJson?_item_eq_some_iff.mp h
    rw [attributeOfItems, Json.attributeOfItems, bind_eq_ok_iff, bind_eq_ok_iff]
    simp only [decodeString_eq_ok_iff hfirst, Json.decodeString_eq_ok_iff]
    refine exists_congr fun name => and_congr_right fun _ => ?_
    cases tail with
    | closed =>
      cases htail
      constructor <;> rintro ⟨⟩
    | broken => cases htail
    | item second tail =>
      obtain ⟨j, rest, hsecond, hmore, rfl⟩ := itemsJson?_item_eq_some_iff.mp htail
      simp only [bind_eq_ok_iff, decodeKind_eq_ok_iff hsecond, Json.decodeKind_eq_ok_iff]
      refine exists_congr fun kind => and_congr_right fun _ => ?_
      cases tail with
      | closed =>
        cases hmore
        simp [pure, Except.pure]
      | broken => cases hmore
      | item third tail =>
        obtain ⟨j, rest, hthird, hlast, rfl⟩ := itemsJson?_item_eq_some_iff.mp hmore
        simp only [bind_eq_ok_iff, decodeDefault_eq_ok_iff hthird, Json.decodeDefault_eq_ok_iff]
        refine exists_congr fun fallback => and_congr_right fun _ => ?_
        cases tail with
        | closed =>
          cases hlast
          simp [pure, Except.pure]
        | broken => cases hlast
        | item fourth tail =>
          obtain ⟨_, _, _, _, rfl⟩ := itemsJson?_item_eq_some_iff.mp hlast
          constructor <;> rintro ⟨⟩

/-- An outline is read as the attribute that its tree denotes if no part is repeated. -/
theorem decodeAttribute_eq_ok_iff (h : o.json? (defaultDepth + 1) = some j) {a : Attribute} :
    o.decodeAttribute = .ok a ↔ DenotesAttribute j a ∧ j.AttributeOnce := by
  cases o with
  | object members =>
    obtain ⟨_, trees, hmembers, rfl⟩ := json?_object_eq_some_iff.mp h
    rw [denotesAttribute_obj_iff]
    simp only [decodeAttribute, bind_eq_ok_iff, lift_eq_ok_iff,
      attributeParts_eq_ok_iff hmembers, settlesOnce_none_iff]
    constructor
    · intro hread
      obtain ⟨parts, ⟨⟨hname, hname'⟩, ⟨hkind, hkind'⟩, hdefault, hdefault'⟩, hassemble⟩ := hread
      refine ⟨⟨parts, ⟨hname, hkind, hdefault⟩, hassemble⟩, by simp [*], ?_⟩
      intro kind hfound
      rw [(assembleAttribute_eq_ok_iff.mp hassemble).2.1] at hkind
      obtain ⟨kind', hfound', hdenotes⟩ := settles_none_iff.mp hkind
      cases hfound.symm.trans hfound'
      exact hdenotes.once
    · intro hdenotes
      obtain ⟨⟨parts, ⟨hname, hkind, hdefault⟩, hassemble⟩, honce, _⟩ := hdenotes
      exact ⟨parts, ⟨⟨hname, honce _ (by simp)⟩, ⟨hkind, honce _ (by simp)⟩,
        hdefault, honce _ (by simp)⟩, hassemble⟩
  | array items =>
    obtain ⟨_, trees, hitems, rfl⟩ := json?_array_eq_some_iff.mp h
    rw [decodeAttribute, attributeOfItems_eq_ok_iff hitems, iff_self_and]
    intro hdenotes
    obtain ⟨kind, third, rfl, hkind, _⟩ := denotesAttribute_arr_iff.mp hdenotes
    exact hkind.once
  | string _ | number _ =>
    obtain ⟨_, _, rfl⟩ := Option.map_eq_some_iff.mp h
    exact ⟨nofun, nofun⟩
  | broken => cases h
  | null | bool _ =>
    cases h
    exact ⟨nofun, nofun⟩

/-- The items of an array are read as the attributes that their trees denote. -/
theorem attributeItems_eq_ok_iff {items : Items} {trees : List Json}
    (h : itemsJson? (defaultDepth + 1) items = some trees) {attributes : List Attribute} :
    attributeItems items = .ok attributes ↔
      List.Forall₂ DenotesAttribute trees attributes ∧ ∀ tree ∈ trees, tree.AttributeOnce := by
  match items with
  | .closed =>
    cases h
    simp [attributeItems, eq_comm]
  | .broken => cases h
  | .item head tail =>
    obtain ⟨first, rest, hhead, htail, rfl⟩ := itemsJson?_item_eq_some_iff.mp h
    have ih : ∀ others, attributeItems tail = .ok others ↔
        List.Forall₂ DenotesAttribute rest others ∧ ∀ tree ∈ rest, tree.AttributeOnce :=
      fun _ => attributeItems_eq_ok_iff htail
    rw [attributeItems, List.forall₂_cons_left_iff, List.forall_mem_cons]
    simp only [bind_eq_ok_iff, decodeAttribute_eq_ok_iff hhead, ih]
    constructor
    · intro hread
      obtain ⟨a, ⟨ha, hfirst⟩, others, ⟨hothers, hrest⟩, ⟨⟩⟩ := hread
      exact ⟨⟨a, others, ha, hothers, rfl⟩, hfirst, hrest⟩
    · intro hdenotes
      obtain ⟨⟨a, others, ha, hothers, rfl⟩, hfirst, hrest⟩ := hdenotes
      exact ⟨a, ⟨ha, hfirst⟩, others, ⟨hothers, hrest⟩, rfl⟩

/-- The attributes of an array none of which repeats a part. -/
def DenotesAttributesOnce (j : Json) (attributes : List Attribute) : Prop :=
  DenotesAttributes j attributes ∧ j.AttributesOnce

theorem decodeAttributes_eq_ok_iff (h : o.json? (defaultDepth + 2) = some j)
    {attributes : List Attribute} :
    o.decodeAttributes = .ok attributes ↔ DenotesAttributesOnce j attributes := by
  unfold DenotesAttributesOnce
  cases o with
  | array items =>
    obtain ⟨_, trees, hitems, rfl⟩ := json?_array_eq_some_iff.mp h
    simp [decodeAttributes, attributeItems_eq_ok_iff hitems, DenotesAttributes, AttributesOnce]
  | object members =>
    obtain ⟨_, trees, _, rfl⟩ := json?_object_eq_some_iff.mp h
    simp [decodeAttributes, DenotesAttributes]
  | string _ | number _ =>
    obtain ⟨_, _, rfl⟩ := Option.map_eq_some_iff.mp h
    simp [decodeAttributes, DenotesAttributes]
  | broken => cases h
  | _ =>
    cases h
    simp [decodeAttributes, DenotesAttributes]

/-- The members of an object settle both parts of a schema once. -/
theorem schemaParts_eq_ok_iff {members : Members} {trees : List (String × Json)}
    (h : membersJson? (defaultDepth + 2) members = some trees) {parts result : Schema.Parts} :
    schemaParts parts members = .ok result ↔
      SettlesOnce "name" DenotesString trees parts.name? result.name? ∧
      SettlesOnce "options" DenotesAttributesOnce trees parts.options? result.options? := by
  match members with
  | .closed =>
    cases h
    obtain ⟨name?, options?⟩ := result
    simp [schemaParts, settlesOnce_nil, Schema.Parts.ext_iff, eq_comm]
  | .broken => cases h
  | .member key value tail =>
    obtain ⟨name, first, rest, hkey, hvalue, htail, rfl⟩ := membersJson?_member_eq_some_iff.mp h
    have ih : ∀ parts : Schema.Parts, schemaParts parts tail = .ok result ↔
        SettlesOnce "name" DenotesString rest parts.name? result.name? ∧
        SettlesOnce "options" DenotesAttributesOnce rest parts.options? result.options? :=
      fun _ => schemaParts_eq_ok_iff htail
    rw [schemaParts, hkey]
    by_cases hname : name = "name"
    · subst hname
      rw [settlesOnce_cons_self, settlesOnce_cons_of_ne (by decide)]
      simp only [if_pos, readOnce_eq_ok_iff, decodeString_eq_ok_iff hvalue, ih]
      constructor
      · intro hread
        obtain ⟨hnew, x, hx, hsettles, hother⟩ := hread
        exact ⟨⟨hnew, x, hx, hsettles⟩, hother⟩
      · intro hdenotes
        obtain ⟨⟨hnew, x, hx, hsettles⟩, hother⟩ := hdenotes
        exact ⟨hnew, x, hx, hsettles, hother⟩
    by_cases hoptions : name = "options"
    · subst hoptions
      rw [settlesOnce_cons_self, settlesOnce_cons_of_ne (by decide)]
      simp only [if_neg hname, if_pos, readOnce_eq_ok_iff, decodeAttributes_eq_ok_iff hvalue, ih]
      constructor
      · intro hread
        obtain ⟨hnew, x, hx, hother, hsettles⟩ := hread
        exact ⟨hother, hnew, x, hx, hsettles⟩
      · intro hdenotes
        obtain ⟨hother, hnew, x, hx, hsettles⟩ := hdenotes
        exact ⟨hnew, x, hx, hother, hsettles⟩
    · rw [settlesOnce_cons_of_ne (Ne.symm hname), settlesOnce_cons_of_ne (Ne.symm hoptions)]
      simp only [if_neg hname, if_neg hoptions, ih]

/-- The array of a declaration is read item by item, as its tree is. -/
theorem declarationOfItems_eq_ok_iff {items : Items} {trees : List Json}
    (h : itemsJson? (defaultDepth + 2) items = some trees) {d : Schema.Declaration} :
    declarationOfItems items = .ok d ↔
      DenotesDeclaration (.arr trees) d ∧ (Json.arr trees).SchemaOnce := by
  rw [denotesDeclaration_arr_iff]
  cases items with
  | closed =>
    cases h
    exact ⟨nofun, nofun⟩
  | broken => cases h
  | item first tail =>
    obtain ⟨j, rest, hfirst, htail, rfl⟩ := itemsJson?_item_eq_some_iff.mp h
    simp only [declarationOfItems, bind_eq_ok_iff, decodeString_eq_ok_iff hfirst]
    cases tail with
    | closed =>
      cases htail
      simp [throw, throwThe, MonadExceptOf.throw]
    | broken => cases htail
    | item second tail =>
      obtain ⟨options, rest, hsecond, hlast, rfl⟩ := itemsJson?_item_eq_some_iff.mp htail
      simp only [bind_eq_ok_iff, decodeAttributes_eq_ok_iff hsecond]
      cases tail with
      | closed =>
        cases hlast
        obtain ⟨name, attributes⟩ := d
        constructor
        · intro hread
          obtain ⟨_, rfl, _, ⟨hattributes, honce⟩, ⟨⟩⟩ := hread
          exact ⟨⟨options, rfl, hattributes⟩, honce⟩
        · intro hdenotes
          obtain ⟨⟨_, heq, hattributes⟩, honce⟩ := hdenotes
          cases heq
          exact ⟨name, rfl, attributes, ⟨hattributes, honce⟩, rfl⟩
      | broken => cases hlast
      | item third tail =>
        obtain ⟨_, _, _, _, rfl⟩ := itemsJson?_item_eq_some_iff.mp hlast
        simp [throw, throwThe, MonadExceptOf.throw]

/-- An outline is read as the declaration that its tree denotes if no part is repeated. -/
theorem decodeDeclaration_eq_ok_iff (h : o.json? maxDepth = some j) {d : Schema.Declaration} :
    o.decodeDeclaration = .ok d ↔ DenotesDeclaration j d ∧ j.SchemaOnce := by
  cases o with
  | object members =>
    obtain ⟨_, trees, hmembers, rfl⟩ := json?_object_eq_some_iff.mp h
    rw [denotesDeclaration_obj_iff]
    simp only [decodeDeclaration, bind_eq_ok_iff, lift_eq_ok_iff,
      schemaParts_eq_ok_iff hmembers, settlesOnce_none_iff]
    constructor
    · intro hread
      obtain ⟨parts, ⟨⟨hname, hname'⟩, hoptions, hoptions'⟩, hassemble⟩ := hread
      obtain ⟨_, hsome⟩ := assembleDeclaration_eq_ok_iff.mp hassemble
      rw [hsome] at hoptions
      obtain ⟨options, hfound, hattributes, honce⟩ := settles_none_iff.mp hoptions
      refine ⟨⟨parts, ⟨hname, ?_⟩, hassemble⟩, by simp [*], ?_⟩
      · rw [hsome]
        exact settles_none_iff.mpr ⟨options, hfound, hattributes⟩
      · intro options' hfound'
        cases hfound.symm.trans hfound'
        exact honce
    · intro hdenotes
      obtain ⟨⟨parts, ⟨hname, hoptions⟩, hassemble⟩, honce, hattributesOnce⟩ := hdenotes
      obtain ⟨_, hsome⟩ := assembleDeclaration_eq_ok_iff.mp hassemble
      rw [hsome] at hoptions
      obtain ⟨options, hfound, hattributes⟩ := settles_none_iff.mp hoptions
      refine ⟨parts, ⟨⟨hname, honce _ (by simp)⟩, ?_, honce _ (by simp)⟩, hassemble⟩
      rw [hsome]
      exact settles_none_iff.mpr ⟨options, hfound, hattributes, hattributesOnce options hfound⟩
  | array items =>
    obtain ⟨_, trees, hitems, rfl⟩ := json?_array_eq_some_iff.mp h
    exact declarationOfItems_eq_ok_iff hitems
  | string _ | number _ =>
    obtain ⟨_, _, rfl⟩ := Option.map_eq_some_iff.mp h
    exact ⟨nofun, nofun⟩
  | broken => cases h
  | null | bool _ =>
    cases h
    exact ⟨nofun, nofun⟩

end Outline

/-- A text writes each part that is read of a schema once. -/
def WritesOnce (text : String) : Prop :=
  ∃ written, (Draft.ofChars text.toList).json? = some written ∧ written.SchemaOnce

end Json

/-- A text is read as the schema of a declaration that its tree, as it is written, denotes,
if no part is repeated. -/
theorem Schema.ofText_eq_ok_iff_of_json? {text : String} {written : Json}
    (h : (Json.Draft.ofChars text.toList).json? = some written) {s : Schema} :
    Schema.ofText text = .ok s ↔ written.SchemaOnce ∧
      ∃ d, Json.DenotesDeclaration written d ∧ Schema.ofDeclaration d = .ok s := by
  unfold Json.Draft.json? at h
  split at h
  · next hended =>
    simp only [Schema.ofText, Json.Draft.decode, Json.Outline.decodeSchema, bind_eq_ok_iff,
      hended, if_pos, Json.Outline.lift_eq_ok_iff, Json.Outline.decodeDeclaration_eq_ok_iff h]
    constructor
    · intro hread
      obtain ⟨_, ⟨d, ⟨hd, honce⟩, hs⟩, ⟨⟩⟩ := hread
      exact ⟨honce, d, hd, hs⟩
    · intro hdenotes
      obtain ⟨honce, d, hd, hs⟩ := hdenotes
      exact ⟨s, ⟨d, ⟨hd, honce⟩, hs⟩, rfl⟩
  · cases h

/-- A text that is JSON is read as a schema exactly if its canonical tree is read as that
schema and no part of it is written twice. -/
theorem Schema.ofText_eq_ok_iff {text : String} {j : Json} (h : Json.parse? text = some j)
    {s : Schema} :
    Schema.ofText text = .ok s ↔ Schema.ofJson j = .ok s ∧ Json.WritesOnce text := by
  obtain ⟨written, hwritten, rfl⟩ := Option.map_eq_some_iff.mp h
  rw [Schema.ofText_eq_ok_iff_of_json? hwritten,
    Schema.ofJson_eq_ok_iff (Json.canonical_canonical written)]
  constructor
  · intro hok
    obtain ⟨honce, d, hd, hs⟩ := hok
    exact ⟨⟨d, (Json.denotesDeclaration_canonical honce).mpr hd, hs⟩, written, hwritten, honce⟩
  · intro hok
    obtain ⟨⟨d, hd, hs⟩, written', hwritten', honce⟩ := hok
    cases hwritten.symm.trans hwritten'
    exact ⟨honce, d, (Json.denotesDeclaration_canonical honce).mp hd, hs⟩

/-- The members of an attribute may stand in any order, and those that are not read may be
written twice. -/
theorem Schema.ofText_eq_ok_iff_unread :
    Json.parse? "[\"n\",[\x7b\"kind\":\"int\",\"x\":1,\"name\":\"c\",\"x\":2\x7d]]" = some
        (.arr [.str "n", .arr
          [.obj [("kind", .str "int"), ("name", .str "c"), ("x", .num (.int 2))]]]) ∧
      Schema.ofText "[\"n\",[\x7b\"kind\":\"int\",\"x\":1,\"name\":\"c\",\"x\":2\x7d]]" =
        .ok ⟨"n", [⟨"c", .int, none⟩]⟩ := by
  have hparse : Json.parse? "[\"n\",[\x7b\"kind\":\"int\",\"x\":1,\"name\":\"c\",\"x\":2\x7d]]" =
      some (.arr [.str "n", .arr
        [.obj [("kind", .str "int"), ("name", .str "c"), ("x", .num (.int 2))]]]) := by
    decide +kernel
  refine ⟨hparse, (Schema.ofText_eq_ok_iff hparse).mpr ⟨by decide +kernel, ?_⟩⟩
  refine ⟨.arr [.str "n", .arr [.obj [("kind", .str "int"), ("x", .num (.int 1)),
    ("name", .str "c"), ("x", .num (.int 2))]]], by decide +kernel, ?_⟩
  simp [Json.SchemaOnce, Json.AttributesOnce, Json.AttributeOnce, Json.KindOnce,
    Json.occurrences, Entries.find?]

end ComponentKinds
