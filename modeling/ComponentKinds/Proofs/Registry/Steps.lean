import ComponentKinds.Proofs.Registry.Reachable

/-!
# What a single step does to a registry

A registry is seen through its family, the list of its kinds and the schema of each kind.
Declaring a kind and adding an attribute are described on this view alone, without the
positions at which schemas are kept; everything that holds of longer runs is derived from
these descriptions.
-/

namespace ComponentKinds.Registry

/-- A kind is listed exactly if it has a schema. -/
theorem Valid.mem_kinds_iff {r : Registry} (h : r.Valid) {kind : String} :
    kind ∈ r.kinds ↔ ∃ s, r.schema? kind = some s := by
  simp only [kinds, List.mem_map, Array.mem_toList_iff, h.schema?_eq_some_iff]

/-- A kind has no schema exactly if it is not listed. -/
theorem Valid.schema?_eq_none_iff_not_mem {r : Registry} (h : r.Valid) {kind : String} :
    r.schema? kind = none ↔ kind ∉ r.kinds := by
  rw [h.mem_kinds_iff, ← Option.isSome_iff_exists, Option.not_isSome_iff_eq_none]

/-- A position is kept exactly for the kinds that are listed. -/
theorem Valid.contains_iff {r : Registry} (h : r.Valid) {kind : String} :
    r.slots.contains kind = true ↔ kind ∈ r.kinds := by
  rw [h.mem_kinds_iff, Keyed.contains, Option.isSome_iff_exists]
  constructor
  · rintro ⟨slot, hslot⟩
    obtain ⟨s, hs, hname⟩ := (h.slot_iff kind slot).mp hslot
    exact ⟨s, h.schema?_eq_some_iff.mpr ⟨Array.mem_of_getElem? hs, hname⟩⟩
  · rintro ⟨s, hs⟩
    obtain ⟨hmem, hname⟩ := h.schema?_eq_some_iff.mp hs
    obtain ⟨slot, hslot⟩ := Array.mem_iff_getElem?.mp hmem
    exact ⟨slot, (h.slot_iff kind slot).mpr ⟨s, hslot, hname⟩⟩

/-- Declaring a kind that is listed changes nothing. -/
theorem Valid.declare_of_mem {r : Registry} (h : r.Valid) {kind : String} (hkind : kind ∈ r.kinds) :
    r.declare kind = r := by
  rw [Registry.declare, if_pos (h.contains_iff.mpr hkind)]

@[simp] theorem family_declare (r : Registry) (kind : String) :
    (r.declare kind).family = r.family := by
  unfold declare
  split <;> rfl

/-- A kind that is declared for the first time is listed last. -/
theorem Valid.kinds_declare {r : Registry} (h : r.Valid) (kind : String) :
    (r.declare kind).kinds = if kind ∈ r.kinds then r.kinds else r.kinds ++ [kind] := by
  by_cases hkind : kind ∈ r.kinds
  · rw [if_pos hkind, h.declare_of_mem hkind]
  · have hnew : ¬r.slots.contains kind = true := fun hold => hkind (h.contains_iff.mp hold)
    rw [if_neg hkind, Registry.declare, if_neg hnew]
    simp [kinds]

/-- A kind that is declared has its schema, or an empty one if it had none; no other schema
changes. -/
theorem Valid.schema?_declare {r : Registry} (h : r.Valid) (kind other : String) :
    (r.declare kind).schema? other =
      if other = kind then some ((r.schema? kind).getD { name := kind }) else r.schema? other := by
  by_cases hkind : kind ∈ r.kinds
  · rw [h.declare_of_mem hkind]
    obtain ⟨s, hs⟩ := h.mem_kinds_iff.mp hkind
    split
    · next heq => rw [heq, hs, Option.getD_some]
    · rfl
  · have hnone := h.schema?_eq_none_iff_not_mem.mpr hkind
    have hnew : ¬r.slots.contains kind = true := fun hold => hkind (h.contains_iff.mp hold)
    have hmem : ∀ s, s ∈ (r.declare kind).schemas ↔ s ∈ r.schemas ∨ s = { name := kind } := by
      intro s
      rw [Registry.declare, if_neg hnew, Array.mem_push]
    refine Option.ext fun s => ?_
    rw [(h.declare kind).schema?_eq_some_iff, hmem, hnone, Option.getD_none]
    split
    · next heq =>
      subst heq
      have hold := h.schema?_eq_none_iff.mp hnone
      constructor
      · rintro ⟨hs | rfl, hname⟩
        · exact absurd hname (hold s hs)
        · rfl
      · rintro ⟨⟩
        exact ⟨Or.inr rfl, rfl⟩
    · next hne =>
      rw [h.schema?_eq_some_iff]
      constructor
      · rintro ⟨hs | rfl, hname⟩
        · exact ⟨hs, hname⟩
        · exact absurd hname.symm hne
      · rintro ⟨hs, hname⟩
        exact ⟨Or.inl hs, hname⟩

/-- An attribute is refused by a declared kind exactly if the schema of the kind refuses it. -/
theorem addAttribute_eq_error_iff {r : Registry} {kind : String} {s : Schema}
    (hs : r.schema? kind = some s) {a : Attribute} {e : Error} :
    r.addAttribute kind a = .error e ↔ s.add a = .error e := by
  obtain ⟨slot, hslot, hschema⟩ := Option.bind_eq_some_iff.mp hs
  simp only [addAttribute, hslot, hschema]
  cases s.add a <;> simp [bind, Except.bind, pure, Except.pure]

/-- A position is kept for one kind only. -/
theorem Valid.slot_inj {r : Registry} (h : r.Valid) {kind other : String} {slot : Nat}
    (hkind : r.slots.get? kind = some slot) (hother : r.slots.get? other = some slot) :
    kind = other := by
  obtain ⟨s, hs, hname⟩ := (h.slot_iff kind slot).mp hkind
  obtain ⟨t, ht, hname'⟩ := (h.slot_iff other slot).mp hother
  rw [hs] at ht
  cases ht
  exact hname.symm.trans hname'

/-- An accepted attribute changes the schema of its kind to what that made of it, and nothing
else. -/
theorem Valid.schema?_addAttribute {r r' : Registry} (h : r.Valid) {kind : String} {a : Attribute}
    (hadd : r.addAttribute kind a = .ok r') :
    ∃ s t, r.schema? kind = some s ∧ s.add a = .ok t ∧ r'.family = r.family ∧
      r'.kinds = r.kinds ∧
      ∀ other, r'.schema? other = if other = kind then some t else r.schema? other := by
  have hvalid := h.addAttribute hadd
  obtain ⟨slot, s, t, hslot, hs, ht, rfl⟩ := addAttribute_eq_ok_iff.mp hadd
  have hschema : r.schema? kind = some s := Option.bind_eq_some_iff.mpr ⟨slot, hslot, hs⟩
  have hname := Schema.name_eq_of_add ht
  refine ⟨s, t, hschema, ht, rfl, ?_, ?_⟩
  · have hkept : (r.schemas.toList.map (·.name))[slot]? = some t.name := by
      rw [hname, List.getElem?_map, Array.getElem?_toList, hs, Option.map_some]
    obtain ⟨hbound, hget⟩ := List.getElem?_eq_some_iff.mp hkept
    rw [kinds, Array.toList_setIfInBounds, List.map_set, ← hget, List.set_getElem_self]
    rfl
  · intro other
    by_cases hother : other = kind
    · subst hother
      have hbound := (Array.getElem?_eq_some_iff.mp hs).1
      rw [if_pos rfl, schema?_eq_bind, hslot, Option.bind_some,
        Array.getElem?_setIfInBounds_self_of_lt hbound]
    · rw [if_neg hother, schema?_eq_bind, schema?_eq_bind]
      cases hposition : r.slots.get? other with
      | none => rfl
      | some position =>
        have hne : slot ≠ position := by
          rintro rfl
          exact hother (h.slot_inj hposition hslot)
        rw [Option.bind_some, Option.bind_some, Array.getElem?_setIfInBounds_ne hne]

end ComponentKinds.Registry
