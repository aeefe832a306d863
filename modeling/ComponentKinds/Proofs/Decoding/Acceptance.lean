import ComponentKinds.Proofs.Decoding.RoundTrip
import ComponentKinds.Proofs.Value.Denotation

/-!
# The trees that are read as a schema

A tree is read as a schema exactly if it denotes the name and the attributes of the schema,
no name of an attribute repeats, and every default is of the kind of its attribute. The four
tokens of kinds and the trees of defaults are spelled out, so that the condition on the tree
mentions none of the functions that read or write one.
-/

namespace ComponentKinds

namespace Json

/-- The tokens that stand for the kinds of values. -/
def kindTokens : List (String × ValueKind) :=
  [("bool", .bool), ("int", .int), ("string", .string), ("string_array", .strings)]

theorem mem_kindTokens_iff {token : String} {k : ValueKind} :
    (token, k) ∈ kindTokens ↔ token = k.token := by
  cases k <;> simp [kindTokens, ValueKind.token]

/-- A kind is denoted by its token, or by an object of that one member with null. -/
theorem denotesKind_iff {j : Json} {k : ValueKind} :
    DenotesKind j k ↔
      ∃ token, (token, k) ∈ kindTokens ∧ (j = .str token ∨ j = .obj [(token, .null)]) := by
  simp only [mem_kindTokens_iff, exists_eq_left]
  constructor
  · rintro (⟨⟩ | ⟨⟩)
    · exact Or.inl rfl
    · exact Or.inr rfl
  · rintro (rfl | rfl)
    · exact .token k
    · exact .object k

/-- A default is denoted by the trees of its value, and a missing one by null. -/
theorem denotesDefault_iff {j : Json} {default? : Option Value} :
    DenotesDefault j default? ↔
      (j = .null ∧ default? = none) ∨ ∃ v, j.DenotesValue v ∧ default? = some v := by
  simp only [denotesValue_iff]
  exact denotesDefault_iff_toJson

end Json

/-- A tree is read as a schema exactly if it denotes the name of the schema and its attributes
in their order, no name of an attribute repeats and every default is of the declared kind. -/
theorem Schema.ofJson_eq_ok_iff_denotes {j : Json} (h : j.Canonical) (s : Schema) :
    (Schema.ofJson j = .ok s ↔
      Json.DenotesDeclaration j (s.name, s.attributes) ∧
        (s.attributes.map (·.name)).Nodup ∧
        ∀ a ∈ s.attributes, ∀ v ∈ a.default?, v.kind = a.kind) ∧
    (∀ tree kind, Json.DenotesKind tree kind ↔
      ∃ token, (token, kind) ∈ Json.kindTokens ∧
        (tree = .str token ∨ tree = .obj [(token, .null)])) ∧
    ∀ tree default?, Json.DenotesDefault tree default? ↔
      (tree = .null ∧ default? = none) ∨ ∃ v, tree.DenotesValue v ∧ default? = some v := by
  refine ⟨?_, fun _ _ => Json.denotesKind_iff, fun _ _ => Json.denotesDefault_iff⟩
  rw [Schema.ofJson_eq_ok_iff h]
  constructor
  · rintro ⟨d, hdenotes, hd⟩
    obtain ⟨⟨hnodup, hfit⟩, rfl⟩ := Schema.ofDeclaration_eq_ok_iff.mp hd
    exact ⟨hdenotes, hnodup, hfit⟩
  · rintro ⟨hdenotes, hnodup, hfit⟩
    exact ⟨_, hdenotes, Schema.ofDeclaration_eq_ok_iff.mpr ⟨⟨hnodup, hfit⟩, rfl⟩⟩

/-- Both forms of a kind, all three forms of a default, and members that are ignored. -/
theorem Schema.ofJson_eq_ok_iff_denotes_mixed :
    let j := Json.obj [("name", .str "k"), ("note", .arr [.null]), ("options", .arr [
      .obj [("default", .null), ("kind", .str "bool"), ("name", .str "a"), ("note", .null)],
      .arr [.str "b", .obj [("int", .null)], .num (.int Int64.minValue.toInt)],
      .arr [.str "c", .str "string_array"]])]
    j.Canonical ∧ Schema.ofJson j = .ok ⟨"k",
      [⟨"a", .bool, none⟩, ⟨"b", .int, some (.int Int64.minValue)⟩, ⟨"c", .strings, none⟩]⟩ := by
  intro j
  have hcanonical : j.Canonical := by decide
  refine ⟨hcanonical, ?_⟩
  refine (Schema.ofJson_eq_ok_iff_denotes hcanonical _).1.mpr ⟨?_, by decide, by decide⟩
  refine .object rfl rfl (.cons ?_ (.cons ?_ (.cons ?_ .nil)))
  · exact .object rfl rfl (.token .bool) (.present .null)
  · exact Json.denotesAttribute_arr_iff.mpr
      ⟨_, some _, rfl, .object .int, .present (.value (.int Int64.minValue))⟩
  · exact Json.denotesAttribute_arr_iff.mpr ⟨_, none, rfl, .token .strings, .absent⟩

end ComponentKinds
