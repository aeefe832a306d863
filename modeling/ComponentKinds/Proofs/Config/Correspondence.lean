import ComponentKinds.Proofs.Decoding.RoundTrip
import ComponentKinds.Proofs.Registry.CreationFromJson

/-!
# Configurations and their objects

The object of a configuration is canonical, has exact numbers only and is shallow, so it is
read again from its text. It is the one tree that is read as the configuration, although it
does not name the kinds of the values, so its members are the attributes and nothing else. A
component that is created from it is the one that is created from the configuration.
-/

namespace ComponentKinds

/-- The form of a value has no objects to bring into order. -/
theorem Value.canonical_toJson (v : Value) : v.toJson.Canonical := by
  cases v with
  | strings items =>
    apply Json.canonical_arr_iff.mpr
    intro item hitem
    obtain ⟨s, _, rfl⟩ := List.mem_map.mp hitem
    rfl
  | _ => rfl

namespace Config

variable {config : Config}

/-- Members denote entries exactly if they have the forms of these, in the same order. -/
theorem denoted_iff_eq_map {members : List (String × Json)} {entries : List (String × Value)} :
    Denoted members entries ↔
      members = entries.map fun entry => (entry.1, entry.2.toJson) := by
  rw [← List.forall₂_eq_eq_eq, List.forall₂_map_right_iff]
  simp only [Denoted, Json.denotesValue_iff, Prod.ext_iff]

/-- The object of a configuration has its members in order. -/
theorem canonical_toJson (config : Config) : config.toJson.Canonical := by
  refine Json.canonical_obj_iff.mpr ⟨config.sorted.of_keys_eq ?_, ?_⟩
  · rw [List.map_map]
    rfl
  · intro member hmem
    obtain ⟨entry, _, rfl⟩ := List.mem_map.mp hmem
    exact entry.2.canonical_toJson

theorem isExact_toJson (config : Config) : config.toJson.isExact = true := by
  apply Json.membersExact_iff.mpr
  intro member hmem
  obtain ⟨entry, _, rfl⟩ := List.mem_map.mp hmem
  exact entry.2.isExact_toJson

/-- The object of a configuration nests two deep at most, the last level being an array. -/
theorem depth_toJson_le (config : Config) : config.toJson.depth ≤ 2 := by
  have hmembers : Json.membersDepth
      (config.entries.map fun entry => (entry.1, entry.2.toJson)) ≤ 1 := by
    apply Json.membersDepth_le_iff.mpr
    intro member hmem
    obtain ⟨entry, _, rfl⟩ := List.mem_map.mp hmem
    exact entry.2.depth_toJson_le
  simp only [toJson, Json.depth]
  omega

/-- The text of a configuration is parsed to its object. -/
theorem parse?_render_toJson (config : Config) :
    Json.parse? config.toJson.render = some config.toJson := by
  have hdepth := Nat.le_trans config.depth_toJson_le (by decide : 2 ≤ Json.maxDepth)
  rw [Json.parse?_render config.isExact_toJson hdepth, config.canonical_toJson.canonical_eq]

/-- The one canonical tree that is read as a configuration is its object. -/
theorem canonical_and_ofJson_eq_ok_iff {j : Json} :
    j.Canonical ∧ ofJson j = .ok config ↔ j = config.toJson := by
  constructor
  · rintro ⟨hcanonical, hread⟩
    obtain ⟨members, rfl, hdenoted⟩ := (ofJson_eq_ok_iff hcanonical).mp hread
    rw [denoted_iff_eq_map.mp hdenoted, toJson]
  · rintro rfl
    have hcanonical := config.canonical_toJson
    exact ⟨hcanonical, (ofJson_eq_ok_iff hcanonical).mpr ⟨_, rfl, denoted_iff_eq_map.mpr rfl⟩⟩

/-- A member of a tree that is read is an attribute of the configuration under the same name,
with the value that the member denotes, and every attribute has such a member. -/
theorem get?_eq_some_iff_of_ofJson {members : List (String × Json)}
    (h : (Json.obj members).Canonical) (hread : ofJson (.obj members) = .ok config)
    {name : String} {v : Value} :
    config.get? name = some v ↔ ∃ tree, (name, tree) ∈ members ∧ tree.DenotesValue v := by
  obtain ⟨_, ⟨⟩, hdenoted⟩ := (ofJson_eq_ok_iff h).mp hread
  rw [← Keyed.mem_entries_iff, hdenoted.mem_iff]

end Config

/-- What is created from a tree is what is created from the configuration that it is read as,
whether or not the kind is declared. -/
theorem Registry.createFromJson_eq_create {j : Json} {config : Config}
    (h : Config.ofJson j = .ok config) (r : Registry) (kind : String) :
    r.createFromJson kind j = r.create kind config := by
  cases hs : r.schema? kind with
  | none => rw [createFromJson_of_schema?_eq_none hs, create_of_schema?_eq_none hs]
  | some s => exact createFromJson_of_config hs h

namespace Config

/-- Configurations and the trees that are read as such correspond one to one. The object of a
configuration is read as it, from the tree and from the text; no other tree is; its members
are the attributes, each with the value of its kind; and registries do not tell the two apart. -/
theorem toJson_corresponds (config : Config) :
    (config.toJson.Canonical ∧ ofJson config.toJson = .ok config) ∧
      (∃ j, Json.parse? config.toJson.render = some j ∧ ofJson j = .ok config) ∧
      (∀ j : Json, j.Canonical → ofJson j = .ok config → config.toJson = j) ∧
      (∀ i j : Json, i.Canonical → j.Canonical → ofJson i = .ok config → ofJson j = .ok config →
        i = j) ∧
      (∀ members, (Json.obj members).Canonical → ofJson (.obj members) = .ok config →
        ∀ name v, config.get? name = some v ↔
          ∃ tree, (name, tree) ∈ members ∧ tree.DenotesValue v) ∧
      ∀ (r : Registry) (kind : String),
        r.createFromJson kind config.toJson = r.create kind config := by
  have hread := canonical_and_ofJson_eq_ok_iff.mpr (Eq.refl config.toJson)
  have hunique : ∀ j : Json, j.Canonical → ofJson j = .ok config → config.toJson = j :=
    fun j hcanonical h => (canonical_and_ofJson_eq_ok_iff.mp ⟨hcanonical, h⟩).symm
  refine ⟨hread, ⟨_, config.parse?_render_toJson, hread.2⟩, hunique, ?_, ?_, ?_⟩
  · intro i j hi hj hiread hjread
    exact (hunique i hi hiread).symm.trans (hunique j hj hjread)
  · intro members hcanonical h name v
    exact get?_eq_some_iff_of_ofJson hcanonical h
  · exact Registry.createFromJson_eq_create hread.2

/-- Names with escapes and beyond ASCII, an empty name, the least integer, an empty array and a
string that could be taken for a number are all kept. -/
theorem toJson_corresponds_escapes :
    let config : Config := .ofList [("\"λ\n", .int Int64.minValue), ("", .strings []),
      ("😀", .string "1"), ("k", .bool false)]
    let j := Json.obj [("", .arr []), ("\"λ\n", .num (.int (-9223372036854775808))),
      ("k", .bool false), ("😀", .str "1")]
    j.Canonical ∧ ofJson j = .ok config ∧ config.toJson = j ∧
      config.get? "😀" = some (.string "1") := by
  intro config j
  have hcanonical : j.Canonical := by decide
  have hread : ofJson j = .ok config := by decide
  obtain ⟨-, -, hunique, -, hmembers, -⟩ := toJson_corresponds config
  refine ⟨hcanonical, hread, hunique j hcanonical hread, ?_⟩
  exact (hmembers _ hcanonical hread "😀" (.string "1")).mpr ⟨.str "1", by simp, .string "1"⟩

end Config

end ComponentKinds
