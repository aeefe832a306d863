import ComponentKinds.Registry.Basic
import ComponentKinds.Proofs.Schema.WellFormed

/-!
# Registries that declarations reach

Declarations change a registry in two ways only: a kind is declared, or an accepted
attribute is added to it. What both keep holds of every registry that declarations reach
from an empty one, whichever of them fail. In particular the position kept for a name is
always that of the one schema of the name, and every schema is well formed.
-/

namespace ComponentKinds.Registry

/-- A registry and what further declarations make of it. One that fails leaves what it did
before its error. -/
inductive Grows (r : Registry) : Registry → Prop
  | refl : Grows r r
  | register {s : Registry} (block : Block) : Grows r s → Grows r (s.register block).registry

/-- A registry that declarations make of an empty one. -/
def Reachable (r : Registry) : Prop := ∃ family, Grows { family } r

theorem Grows.trans {r s t : Registry} (h : r.Grows s) (h' : s.Grows t) : r.Grows t := by
  induction h' with
  | refl => exact h
  | register block _ ih => exact ih.register block

/-- What grows from a reachable registry is reachable. -/
theorem Reachable.grows {r s : Registry} (h : r.Reachable) (hgrows : r.Grows s) : s.Reachable := by
  obtain ⟨family, hr⟩ := h
  exact ⟨family, hr.trans hgrows⟩

/-- The attributes of a block keep what every single accepted attribute keeps. -/
theorem addAttributes_induction {P : Registry → Prop}
    (add : ∀ r r' kind a, P r → r.addAttribute kind a = .ok r' → P r')
    {r : Registry} (h : P r) (kind : String) (attributes : List Attribute) :
    P (r.addAttributes kind attributes).registry := by
  induction attributes generalizing r with
  | nil => exact h
  | cons a rest ih =>
    rw [addAttributes]
    cases hadd : r.addAttribute kind a with
    | ok r' => exact ih (add r r' kind a h hadd)
    | error e => exact h

/-- What a declared kind and an accepted attribute keep is kept while a registry grows. -/
theorem Grows.induction {P : Registry → Prop}
    (declare : ∀ r kind, P r → P (r.declare kind))
    (add : ∀ r r' kind a, P r → r.addAttribute kind a = .ok r' → P r')
    {r s : Registry} (h : r.Grows s) (hr : P r) : P s := by
  induction h with
  | refl => exact hr
  | register block _ ih =>
    exact addAttributes_induction add (declare _ block.kind ih) block.kind block.attributes

/-- An attribute is added where the schema of its kind stands, if that accepts it. -/
theorem addAttribute_eq_ok_iff {r r' : Registry} {kind : String} {a : Attribute} :
    r.addAttribute kind a = .ok r' ↔ ∃ slot s t, r.slots.get? kind = some slot ∧
      r.schemas[slot]? = some s ∧ s.add a = .ok t ∧
      { r with schemas := r.schemas.setIfInBounds slot t } = r' := by
  unfold addAttribute
  cases hslot : r.slots.get? kind with
  | none => simp
  | some slot =>
    cases hschema : r.schemas[slot]? with
    | none => simp [hschema]
    | some s =>
      cases hadd : s.add a with
      | error e => simp [hschema, hadd, bind, Except.bind]
      | ok t => simp [hschema, hadd, bind, Except.bind, pure, Except.pure]

/-- The position kept for a name is that of the schema with the name, and every schema is
well formed. -/
structure Valid (r : Registry) : Prop where
  /-- A position is kept for a name exactly if a schema of that name stands there. -/
  slot_iff : ∀ kind slot, r.slots.get? kind = some slot ↔
    ∃ s, r.schemas[slot]? = some s ∧ s.name = kind
  /-- Every schema is well formed. -/
  wellFormed : ∀ s ∈ r.schemas, s.WellFormed

/-- An empty registry keeps no positions and no schemas. -/
theorem valid_empty (family : String) : ({ family } : Registry).Valid := by
  refine ⟨?_, nofun⟩
  intro kind slot
  simp

/-- Declaring a kind keeps positions and schemas in step. -/
theorem Valid.declare {r : Registry} (h : r.Valid) (kind : String) : (r.declare kind).Valid := by
  unfold Registry.declare
  split
  · exact h
  · next hnew =>
    have habsent : r.slots.get? kind = none := by simpa [Keyed.contains] using hnew
    refine ⟨?_, ?_⟩
    · intro other slot
      rw [Keyed.get?_insert, Array.getElem?_push]
      by_cases hother : other = kind
      · subst hother
        have hnone : ∀ s, r.schemas[slot]? = some s → s.name ≠ other := by
          intro s hs hname
          rw [(h.slot_iff other slot).mpr ⟨s, hs, hname⟩] at habsent
          cases habsent
        by_cases hslot : slot = r.schemas.size
        · simp [hslot]
        · simpa [hslot, Ne.symm hslot] using hnone
      · rw [if_neg hother, h.slot_iff]
        by_cases hslot : slot = r.schemas.size
        · simp [hslot, Ne.symm hother]
        · simp [hslot]
    · intro s hs
      rcases Array.mem_push.mp hs with hs | rfl
      · exact h.wellFormed s hs
      · exact Schema.wellFormed_nil kind

/-- An accepted attribute changes one schema in its place and leaves its name. -/
theorem Valid.addAttribute {r r' : Registry} (h : r.Valid) {kind : String} {a : Attribute}
    (hadd : r.addAttribute kind a = .ok r') : r'.Valid := by
  obtain ⟨slot, s, t, hslot, hs, ht, rfl⟩ := addAttribute_eq_ok_iff.mp hadd
  have hname := Schema.name_eq_of_add ht
  have hmem : s ∈ r.schemas := Array.mem_of_getElem? hs
  refine ⟨?_, ?_⟩
  · intro other position
    rw [h.slot_iff, Array.getElem?_setIfInBounds]
    by_cases hposition : slot = position
    · subst hposition
      have hbound : slot < r.schemas.size := (Array.getElem?_eq_some_iff.mp hs).1
      rw [if_pos rfl, if_pos hbound, hs]
      simp [hname]
    · simp [hposition]
  · intro u hu
    rcases Array.mem_or_eq_of_mem_setIfInBounds hu with hu | rfl
    · exact h.wellFormed u hu
    · exact (h.wellFormed s hmem).add ht

/-- Growth keeps positions and schemas in step. -/
theorem Grows.valid {r s : Registry} (h : r.Grows s) (hr : r.Valid) : s.Valid :=
  h.induction (fun _ kind hr => hr.declare kind) (fun _ _ _ _ hr hadd => hr.addAttribute hadd) hr

/-- Positions and schemas are in step in every registry that declarations reach. -/
theorem Reachable.valid {r : Registry} (h : r.Reachable) : r.Valid := by
  obtain ⟨family, hgrows⟩ := h
  exact hgrows.valid (valid_empty family)

/-- The schema of a kind is the one that stands at the position of the kind. -/
theorem schema?_eq_bind (r : Registry) (kind : String) :
    r.schema? kind = (r.slots.get? kind).bind (r.schemas[·]?) := rfl

/-- The schema of a kind is the one with its name. -/
theorem Valid.schema?_eq_some_iff {r : Registry} (h : r.Valid) {kind : String} {s : Schema} :
    r.schema? kind = some s ↔ s ∈ r.schemas ∧ s.name = kind := by
  rw [schema?_eq_bind, Option.bind_eq_some_iff]
  constructor
  · rintro ⟨slot, hslot, hs⟩
    obtain ⟨t, ht, hname⟩ := (h.slot_iff kind slot).mp hslot
    rw [hs] at ht
    cases ht
    exact ⟨Array.mem_of_getElem? hs, hname⟩
  · rintro ⟨hmem, hname⟩
    obtain ⟨slot, hs⟩ := Array.mem_iff_getElem?.mp hmem
    exact ⟨slot, (h.slot_iff kind slot).mpr ⟨s, hs, hname⟩, hs⟩

/-- A kind has no schema exactly if none has its name. -/
theorem Valid.schema?_eq_none_iff {r : Registry} (h : r.Valid) {kind : String} :
    r.schema? kind = none ↔ ∀ s ∈ r.schemas, s.name ≠ kind := by
  rw [Option.eq_none_iff_forall_ne_some]
  constructor
  · intro hnone s hmem hname
    exact hnone s (h.schema?_eq_some_iff.mpr ⟨hmem, hname⟩)
  · intro hnone s hs
    obtain ⟨hmem, hname⟩ := h.schema?_eq_some_iff.mp hs
    exact hnone s hmem hname

end ComponentKinds.Registry
