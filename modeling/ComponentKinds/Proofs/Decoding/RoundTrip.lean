import ComponentKinds.Json.Printed.Outline
import ComponentKinds.Proofs.Decoding.Agreement
import ComponentKinds.Proofs.Schema.WellFormed

/-!
# Reading back what was written

However a schema was obtained, it is well formed. Its JSON form denotes its declaration,
writes no part twice, has exact numbers only and is shallow, so the text that it is printed
as and the tree that it is made into are read. The declaration that is read is then
accepted, as the schema is well formed, and gives the schema again.
-/

namespace ComponentKinds

namespace Json

/-- Items are exact one by one. -/
theorem itemsExact_iff {items : List Json} :
    itemsExact items = true ↔ ∀ item ∈ items, item.isExact = true := by
  induction items with
  | nil => simp [itemsExact]
  | cons item rest ih => simp [itemsExact, ih]

/-- Items are no deeper than allowed one by one. -/
theorem itemsDepth_le_iff {items : List Json} {depth : Nat} :
    itemsDepth items ≤ depth ↔ ∀ item ∈ items, item.depth ≤ depth := by
  induction items with
  | nil => simp [itemsDepth]
  | cons item rest ih => rw [itemsDepth, Nat.max_le, ih, List.forall_mem_cons]

/-- Members are exact one by one. -/
theorem membersExact_iff {members : List (String × Json)} :
    membersExact members = true ↔ ∀ member ∈ members, member.2.isExact = true := by
  induction members with
  | nil => simp [membersExact]
  | cons member rest ih => simp [membersExact, ih]

/-- Members are no deeper than allowed one by one. -/
theorem membersDepth_le_iff {members : List (String × Json)} {depth : Nat} :
    membersDepth members ≤ depth ↔ ∀ member ∈ members, member.2.depth ≤ depth := by
  induction members with
  | nil => simp [membersDepth]
  | cons member rest ih => rw [membersDepth, Nat.max_le, ih, List.forall_mem_cons]

/-- The text of an exact and shallow tree is that tree as it is written. -/
theorem json?_render {j : Json} (h : j.isExact = true) (hdepth : j.depth ≤ maxDepth) :
    (Draft.ofChars j.render.toList).json? = some j := by
  rw [render, String.toList_ofList, draft_chars h]
  exact Outline.json?_ofJson h hdepth

end Json

namespace Value

/-- The form of a value has no number beyond 64 bits. -/
theorem isExact_toJson (v : Value) : v.toJson.isExact = true := by
  cases v with
  | int i =>
    have hhigh := i.toInt_lt
    simp only [toJson, Json.isExact, Bool.and_eq_true, decide_eq_true_eq]
    exact ⟨i.minValue_le_toInt, by simp only [UInt64.size]; omega⟩
  | strings items =>
    apply Json.itemsExact_iff.mpr
    intro item hitem
    obtain ⟨s, _, rfl⟩ := List.mem_map.mp hitem
    rfl
  | _ => rfl

/-- The form of a value is an array of strings at most. -/
theorem depth_toJson_le (v : Value) : v.toJson.depth ≤ 1 := by
  cases v with
  | strings items =>
    have hitems : Json.itemsDepth (items.map .str) ≤ 0 := by
      apply Json.itemsDepth_le_iff.mpr
      intro item hitem
      obtain ⟨s, _, rfl⟩ := List.mem_map.mp hitem
      exact Nat.le_refl 0
    simp only [toJson, Json.depth]
    omega
  | _ => simp [toJson, Json.depth]

end Value

namespace Schema

/-- The form of an attribute denotes it, with a default exactly if it has one. -/
theorem denotesAttribute_attributeJson (a : Attribute) :
    Json.DenotesAttribute (attributeJson a) a := by
  obtain ⟨name, kind, default?⟩ := a
  refine .object rfl rfl (.token kind) ?_
  cases default? with
  | none => exact .absent
  | some v => exact .present (.value v)

/-- The form of an attribute repeats no part. -/
theorem attributeOnce_attributeJson (a : Attribute) : (attributeJson a).AttributeOnce := by
  obtain ⟨name, kind, default?⟩ := a
  refine ⟨?_, ?_⟩
  · cases default? <;> simp [Json.occurrences]
  · intro j hfound
    cases hfound
    trivial

theorem isExact_attributeJson (a : Attribute) : (attributeJson a).isExact = true := by
  obtain ⟨name, kind, default?⟩ := a
  cases default? with
  | none => rfl
  | some v => simp [attributeJson, Json.isExact, Json.membersExact, v.isExact_toJson]

theorem depth_attributeJson_le (a : Attribute) : (attributeJson a).depth ≤ 2 := by
  obtain ⟨name, kind, default?⟩ := a
  cases default? with
  | none => simp [attributeJson, Json.depth, Json.membersDepth]
  | some v =>
    have hvalue := v.depth_toJson_le
    simp only [attributeJson, Option.map_some, Option.toList_some, Json.depth, Json.membersDepth]
    omega

/-- The form of a schema denotes its name and its attributes in their order. -/
theorem denotesDeclaration_toJson (s : Schema) :
    Json.DenotesDeclaration s.toJson (s.name, s.attributes) := by
  refine .object rfl rfl ?_
  rw [List.forall₂_map_left_iff, List.forall₂_same]
  intro a _
  exact denotesAttribute_attributeJson a

/-- The form of a schema repeats no part that is read. -/
theorem schemaOnce_toJson (s : Schema) : s.toJson.SchemaOnce := by
  refine ⟨by simp [Json.occurrences], ?_⟩
  intro options hfound
  cases hfound
  intro item hitem
  obtain ⟨a, _, rfl⟩ := List.mem_map.mp hitem
  exact attributeOnce_attributeJson a

theorem isExact_toJson (s : Schema) : s.toJson.isExact = true := by
  have hitems : Json.itemsExact (s.attributes.map attributeJson) = true := by
    apply Json.itemsExact_iff.mpr
    intro item hitem
    obtain ⟨a, _, rfl⟩ := List.mem_map.mp hitem
    exact isExact_attributeJson a
  simp [toJson, Json.isExact, Json.membersExact, hitems]

/-- The form of a schema nests four deep at most, the last level being a default. -/
theorem depth_toJson_le (s : Schema) : s.toJson.depth ≤ 4 := by
  have hitems : Json.itemsDepth (s.attributes.map attributeJson) ≤ 2 := by
    apply Json.itemsDepth_le_iff.mpr
    intro item hitem
    obtain ⟨a, _, rfl⟩ := List.mem_map.mp hitem
    exact depth_attributeJson_le a
  simp only [toJson, Json.depth, Json.membersDepth]
  omega

/-- A declaration is accepted exactly if it makes a well-formed schema, and gives that. -/
theorem ofDeclaration_eq_ok_iff {d : Schema.Declaration} {s : Schema} :
    Schema.ofDeclaration d = .ok s ↔ s.WellFormed ∧ d = (s.name, s.attributes) := by
  obtain ⟨name, attributes⟩ := d
  obtain ⟨name', attributes'⟩ := s
  have hbuild : build name attributes = .ok ⟨name', attributes'⟩ ↔
      WellFormed ⟨name', attributes'⟩ ∧ (name, attributes) = (name', attributes') := by
    rw [build_eq_ok_iff, Prod.mk.injEq, Schema.mk.injEq]
  rw [← hbuild, ofDeclaration]
  cases build name attributes <;> simp

/-- The text of a well-formed schema is read as that schema. -/
theorem WellFormed.ofText_render {s : Schema} (h : s.WellFormed) :
    Schema.ofText s.toJson.render = .ok s := by
  have hwritten := Json.json?_render s.isExact_toJson
    (Nat.le_trans s.depth_toJson_le (by decide))
  apply (ofText_eq_ok_iff_of_json? hwritten).mpr
  exact ⟨s.schemaOnce_toJson, _, s.denotesDeclaration_toJson, ofDeclaration_eq_ok_iff.mpr ⟨h, rfl⟩⟩

/-- The tree of a well-formed schema is read as that schema. -/
theorem WellFormed.ofJson_canonical {s : Schema} (h : s.WellFormed) :
    Schema.ofJson s.toJson.canonical = .ok s := by
  apply (ofJson_eq_ok_iff (Json.canonical_canonical s.toJson)).mpr
  refine ⟨_, ?_, ofDeclaration_eq_ok_iff.mpr ⟨h, rfl⟩⟩
  exact (Json.denotesDeclaration_canonical s.schemaOnce_toJson).mpr s.denotesDeclaration_toJson

/-- A schema after an attempt to add an attribute, which may fail. -/
def afterAdd (s : Schema) (a : Attribute) : Schema :=
  match s.add a with
  | .ok t => t
  | .error _ => s

/-- The schemas that can be obtained: from an empty one by adding attributes, whether or
not each is accepted, and by reading a text or a tree. -/
inductive Obtainable : Schema → Prop
  | empty (name : String) : Obtainable { name }
  | add {s : Schema} (h : Obtainable s) (a : Attribute) : Obtainable (s.afterAdd a)
  | ofText {text : String} {s : Schema} (h : Schema.ofText text = .ok s) : Obtainable s
  | ofJson {j : Json} {s : Schema} (h : Schema.ofJson j = .ok s) : Obtainable s

/-- What is read from a text was accepted as a declaration. -/
private theorem wellFormed_of_ofText {text : String} {s : Schema}
    (h : Schema.ofText text = .ok s) : s.WellFormed := by
  obtain ⟨t, ht, hended⟩ := bind_eq_ok_iff.mp h
  obtain ⟨d, _, hd⟩ := bind_eq_ok_iff.mp ht
  have hs : t = s := by
    split at hended <;> cases hended
    rfl
  rw [← hs]
  exact (ofDeclaration_eq_ok_iff.mp (Json.Outline.lift_eq_ok_iff.mp hd)).1

/-- What is read from a tree was accepted as a declaration. -/
private theorem wellFormed_of_ofJson {j : Json} {s : Schema} (h : Schema.ofJson j = .ok s) :
    s.WellFormed := by
  obtain ⟨d, _, hd⟩ := bind_eq_ok_iff.mp h
  exact (ofDeclaration_eq_ok_iff.mp hd).1

/-- Exactly the well-formed schemas can be obtained. -/
theorem obtainable_iff_wellFormed {s : Schema} : s.Obtainable ↔ s.WellFormed := by
  constructor
  · intro h
    induction h with
    | empty name => exact wellFormed_nil name
    | @add s _ a ih =>
      unfold afterAdd
      cases hadd : s.add a with
      | ok t => exact ih.add hadd
      | error e => exact ih
    | ofText h => exact wellFormed_of_ofText h
    | ofJson h => exact wellFormed_of_ofJson h
  · intro h
    exact .ofText h.ofText_render

/-- Every schema that can be obtained is read back from its text and from its tree. -/
theorem Obtainable.read_back {s : Schema} (h : s.Obtainable) :
    Schema.ofText s.toJson.render = .ok s ∧ Schema.ofJson s.toJson.canonical = .ok s := by
  have hwell := obtainable_iff_wellFormed.mp h
  exact ⟨hwell.ofText_render, hwell.ofJson_canonical⟩

/-- A schema with the least integer and an empty list as defaults is read back; the second
attribute of the same name was not accepted. -/
theorem Obtainable.read_back_after_rejected_add :
    let s := ((({ name := "λ" } : Schema).afterAdd ⟨"c", .int, some (.int Int64.minValue)⟩).afterAdd
      ⟨"c", .bool, none⟩).afterAdd ⟨"", .strings, some (.strings [])⟩
    s = ⟨"λ", [⟨"c", .int, some (.int Int64.minValue)⟩, ⟨"", .strings, some (.strings [])⟩]⟩ ∧
      Schema.ofText s.toJson.render = .ok s ∧ Schema.ofJson s.toJson.canonical = .ok s := by
  intro s
  have hadded : s = ⟨"λ", [⟨"c", .int, some (.int Int64.minValue)⟩,
      ⟨"", .strings, some (.strings [])⟩]⟩ := by
    decide +kernel
  exact ⟨hadded, Obtainable.read_back ((((Obtainable.empty "λ").add _).add _).add _)⟩

end Schema

end ComponentKinds
