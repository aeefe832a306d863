import ComponentKinds.Schema.Basic
import Mathlib.Data.List.Nodup

/-!
# Schemas with distinct names and fitting defaults

The check that precedes every addition of an attribute is equivalent to a property of the
schema as a whole: names do not repeat and each default is of the kind of its attribute.
A schema has that property exactly if it is built from the empty one by accepted
attributes, so replaying the attributes of such a schema gives the schema again.
-/

namespace ComponentKinds.Schema

/-- Attribute names are distinct and every default is of the kind of its attribute. -/
structure WellFormed (s : Schema) : Prop where
  /-- No name repeats. -/
  names_nodup : (s.attributes.map (·.name)).Nodup
  /-- Every default fits. -/
  defaults_fit : ∀ a ∈ s.attributes, a.DefaultFits

/-- The schema without attributes has nothing to repeat. -/
theorem wellFormed_nil (name : String) : ({ name } : Schema).WellFormed :=
  ⟨List.nodup_nil, nofun⟩

/-- A name is unknown exactly if no attribute has it. -/
theorem attribute?_eq_none_iff {s : Schema} {name : String} :
    s.attribute? name = none ↔ ∀ a ∈ s.attributes, a.name ≠ name := by
  simp [attribute?, List.find?_eq_none]

/-- Attributes of one name are one attribute. -/
theorem WellFormed.eq_of_name_eq {s : Schema} (h : s.WellFormed) {a b : Attribute}
    (ha : a ∈ s.attributes) (hb : b ∈ s.attributes) (hname : a.name = b.name) : a = b :=
  List.inj_on_of_nodup_map h.names_nodup ha hb hname

/-- Lookup by name finds the attribute of that name, and there is no other. -/
theorem WellFormed.attribute?_eq_some_iff {s : Schema} (h : s.WellFormed) {name : String}
    {a : Attribute} : s.attribute? name = some a ↔ a ∈ s.attributes ∧ a.name = name := by
  constructor
  · intro hfind
    exact ⟨List.mem_of_find?_eq_some hfind, by simpa using List.find?_some hfind⟩
  · rintro ⟨hmem, rfl⟩
    cases hfind : s.attribute? a.name with
    | none => exact absurd rfl (attribute?_eq_none_iff.mp hfind a hmem)
    | some b =>
      have hname : b.name = a.name := by simpa using List.find?_some hfind
      rw [h.eq_of_name_eq (List.mem_of_find?_eq_some hfind) hmem hname]

/-- An attribute has no fault exactly if its name is new and its default fits. -/
theorem fault?_eq_none_iff {s : Schema} {a : Attribute} :
    s.fault? a = none ↔ (∀ b ∈ s.attributes, b.name ≠ a.name) ∧ a.DefaultFits := by
  rw [← attribute?_eq_none_iff]
  unfold fault? Attribute.DefaultFits
  cases hfind : s.attribute? a.name with
  | some b => simp
  | none => cases hdefault : a.default? <;> simp

/-- An accepted attribute stands at the end of a schema that is otherwise unchanged. -/
theorem add_eq_ok_iff {s t : Schema} {a : Attribute} :
    s.add a = .ok t ↔ ((∀ b ∈ s.attributes, b.name ≠ a.name) ∧ a.DefaultFits) ∧
      { s with attributes := s.attributes ++ [a] } = t := by
  rw [← fault?_eq_none_iff]
  unfold add
  cases s.fault? a <;> simp

/-- An accepted attribute leaves the name of the schema. -/
theorem name_eq_of_add {s t : Schema} {a : Attribute} (h : s.add a = .ok t) : t.name = s.name := by
  obtain ⟨_, rfl⟩ := add_eq_ok_iff.mp h
  rfl

/-- An attribute may be added to a well-formed schema exactly if the result is one. -/
theorem WellFormed.append_iff {s : Schema} (h : s.WellFormed) (a : Attribute) :
    ({ s with attributes := s.attributes ++ [a] } : Schema).WellFormed ↔
      (∀ b ∈ s.attributes, b.name ≠ a.name) ∧ a.DefaultFits := by
  constructor
  · rintro ⟨hnodup, hfit⟩
    refine ⟨?_, hfit a (by simp)⟩
    intro b hb hname
    rw [List.map_append, List.nodup_append] at hnodup
    exact hnodup.2.2 _ (List.mem_map_of_mem hb) _ (by simp) hname
  · rintro ⟨hnew, hfit⟩
    refine ⟨?_, ?_⟩
    · rw [List.map_append, List.nodup_append]
      refine ⟨h.names_nodup, by simp, ?_⟩
      simpa using hnew
    · intro b hb
      rcases List.mem_append.mp hb with hb | hb
      · exact h.defaults_fit b hb
      · rw [List.mem_singleton.mp hb]
        exact hfit

/-- Accepted attributes keep a schema well formed. -/
theorem WellFormed.add {s t : Schema} {a : Attribute} (h : s.WellFormed)
    (hadd : s.add a = .ok t) : t.WellFormed := by
  obtain ⟨haccepted, rfl⟩ := add_eq_ok_iff.mp hadd
  exact (h.append_iff a).mpr haccepted

/-- A prefix of the attributes of a well-formed schema is well formed by itself. -/
theorem WellFormed.of_append {s : Schema} {rest : List Attribute}
    (h : ({ s with attributes := s.attributes ++ rest } : Schema).WellFormed) :
    s.WellFormed := by
  obtain ⟨hnodup, hfit⟩ := h
  refine ⟨?_, fun a ha => hfit a (List.mem_append_left _ ha)⟩
  rw [List.map_append] at hnodup
  exact (List.nodup_append.mp hnodup).1

/-- Attributes are added one after the other exactly if all of them together may stand
behind those that are there. -/
theorem WellFormed.addAll_eq_ok_iff {s t : Schema} (h : s.WellFormed)
    (attributes : List Attribute) :
    s.addAll attributes = .ok t ↔
      t.WellFormed ∧ { s with attributes := s.attributes ++ attributes } = t := by
  induction attributes generalizing s with
  | nil =>
    simp only [addAll, Except.ok.injEq, List.append_nil]
    constructor
    · rintro rfl
      exact ⟨h, rfl⟩
    · exact fun ht => ht.2
  | cons a rest ih =>
    simp only [addAll]
    cases hadd : s.add a with
    | ok u =>
      have hu := h.add hadd
      obtain ⟨_, rfl⟩ := add_eq_ok_iff.mp hadd
      simpa using ih hu
    | error e =>
      refine ⟨nofun, ?_⟩
      rintro ⟨ht, rfl⟩
      have hfront : ({ s with attributes := s.attributes ++ [a] } : Schema).WellFormed := by
        apply @WellFormed.of_append _ rest
        simpa using ht
      have hok : s.add a = .ok _ := add_eq_ok_iff.mpr ⟨(h.append_iff a).mp hfront, rfl⟩
      rw [hadd] at hok
      cases hok

/-- Building accepts a list of attributes exactly if it makes a well-formed schema, which
then has these attributes in this order. -/
theorem build_eq_ok_iff {name : String} {attributes : List Attribute} {t : Schema} :
    build name attributes = .ok t ↔ t.WellFormed ∧ ⟨name, attributes⟩ = t :=
  (wellFormed_nil name).addAll_eq_ok_iff attributes

end ComponentKinds.Schema
