import ComponentKinds.Family
import ComponentKinds.Proofs.Registry.CreationFromJson
import ComponentKinds.Proofs.Registry.Extension
import ComponentKinds.Proofs.Registry.History

/-!
# The lookups of a registry agree

A registry keeps its kinds twice, in the list of its schemas and as positions by name. Both
stay in step whichever declarations fail, so a position is never out of range, and every
lookup tells the same kinds from those that are not declared.
-/

namespace ComponentKinds.Registry

/-- A script of blocks is one way for a registry to grow, also if a block fails. -/
theorem Grows.registerAll {r s : Registry} (h : r.Grows s) (blocks : List Block) :
    r.Grows (s.registerAll blocks).registry := by
  induction blocks generalizing s with
  | nil => exact h
  | cons block rest ih =>
    have hblock := h.register block
    rw [Registry.registerAll]
    cases (s.register block).error? with
    | none => exact ih hblock
    | some e => exact hblock

/-- The registrar of a script leaves the registry that the script leaves. -/
theorem registry_run_ofBlocks (family : String) (blocks : List Block) (r : Registry)
    (installed : Option Registry) :
    ((Registrar.ofBlocks blocks).run family r installed).registry =
      (r.registerAll blocks).registry := by
  induction blocks generalizing r with
  | nil => rfl
  | cons block rest ih =>
    rw [Registrar.ofBlocks, Registrar.run, Registry.registerAll]
    cases (r.register block).error? with
    | none => exact ih _
    | some e => rfl

/-- The list of the schemas and the positions by name describe the same kinds. -/
structure Indexed (r : Registry) : Prop where
  /-- No kind is listed twice. -/
  kinds_nodup : r.kinds.Nodup
  /-- A position is kept for a name exactly if the name is listed there. -/
  slot_iff : ∀ kind slot, r.slots.get? kind = some slot ↔ r.kinds[slot]? = some kind
  /-- A position that is kept is that of a schema, which has the name. -/
  slot_in_range : ∀ kind slot, r.slots.get? kind = some slot →
    ∃ _ : slot < r.schemas.size, r.schemas[slot].name = kind
  /-- No attribute name repeats within a schema. -/
  names_nodup : ∀ s ∈ r.schemas, (s.attributes.map (·.name)).Nodup
  /-- Every default is of the kind of its attribute. -/
  defaults_fit : ∀ s ∈ r.schemas, ∀ a ∈ s.attributes, ∀ v, a.default? = some v → v.kind = a.kind

variable {r : Registry} {kind : String}

/-- A kind is listed at a position exactly if the position is kept for it. -/
theorem Valid.slot_iff_kinds (h : r.Valid) {slot : Nat} :
    r.slots.get? kind = some slot ↔ r.kinds[slot]? = some kind := by
  rw [h.slot_iff, kinds, List.getElem?_map, Array.getElem?_toList, Option.map_eq_some_iff]

/-- A kind that is listed twice would have two positions. -/
theorem Valid.kinds_nodup (h : r.Valid) : r.kinds.Nodup := by
  rw [List.nodup_iff_getElem?_ne_getElem?]
  intro i j hlt hj heq
  rw [List.getElem?_eq_getElem hj] at heq
  have hfirst := h.slot_iff_kinds.mpr heq
  have hsecond := h.slot_iff_kinds.mpr (List.getElem?_eq_getElem hj)
  rw [hfirst] at hsecond
  exact Nat.ne_of_lt hlt (Option.some.inj hsecond)

/-- Positions and schemas that are in step describe the same kinds. -/
theorem Valid.indexed (h : r.Valid) : r.Indexed where
  kinds_nodup := h.kinds_nodup
  slot_iff _ _ := h.slot_iff_kinds
  slot_in_range kind slot hslot := by
    obtain ⟨s, hs, hname⟩ := (h.slot_iff kind slot).mp hslot
    obtain ⟨hbound, rfl⟩ := Array.getElem?_eq_some_iff.mp hs
    exact ⟨hbound, hname⟩
  names_nodup s hs := (h.wellFormed s hs).names_nodup
  defaults_fit s hs a ha := (h.wellFormed s hs).defaults_fit a ha

/-- A query that fails without a schema and succeeds with one succeeds exactly for the kinds
that are listed. -/
theorem Valid.succeeds_iff (h : r.Valid) {α : Type} {query : Except Error α} {e : Error}
    (undeclared : r.schema? kind = none → query = .error e)
    (declared : ∀ s, r.schema? kind = some s → ∃ x, query = .ok x) :
    (∃ x, query = .ok x) ↔ kind ∈ r.kinds := by
  constructor
  · rintro ⟨x, hx⟩
    by_contra habsent
    rw [undeclared (h.schema?_eq_none_iff_not_mem.mpr habsent)] at hx
    cases hx
  · intro hkind
    obtain ⟨s, hs⟩ := h.mem_kinds_iff.mp hkind
    exact declared s hs

/-- The attributes of a kind without a schema are not listed. -/
theorem options_of_schema?_eq_none (hs : r.schema? kind = none) :
    r.options kind = .error (.unknownKind r.family kind) := by
  simp only [options, lookup, hs]
  rfl

/-- A kind with a schema has a component of its defaults alone. -/
theorem exists_create_empty {s : Schema} (hs : r.schema? kind = some s) :
    ∃ c, r.create kind .empty = .ok c :=
  ⟨_, create_of_schema? hs .empty⟩

/-- Whatever was declared, and whichever of it failed, the kinds and their positions are in
step, and all lookups agree on which kinds there are. A kind that is none is reported as that,
with the family. -/
theorem Grows.lookups_agree {family : String} (h : ({ family } : Registry).Grows r) :
    r.Indexed ∧ r.size = r.kinds.length ∧
      (∀ kind s, r.schema? kind = some s → s.name = kind) ∧
      ∀ kind,
        (r.contains kind = true ↔ kind ∈ r.kinds) ∧
        ((∃ s, r.schema? kind = some s) ↔ kind ∈ r.kinds) ∧
        ((∃ listed, r.options kind = .ok listed) ↔ kind ∈ r.kinds) ∧
        ((∃ c, r.create kind .empty = .ok c) ↔ kind ∈ r.kinds) ∧
        (kind ∉ r.kinds →
          r.options kind = .error (.unknownKind family kind) ∧
          (∀ config, r.create kind config = .error (.unknownKind family kind)) ∧
          ∀ j, r.createFromJson kind j = .error (.unknownKind family kind)) := by
  have hvalid := h.valid (valid_empty family)
  have hfamily : r.family = family := (h.extension (valid_empty family)).family_eq
  refine ⟨hvalid.indexed, ?_, ?_, fun kind => ⟨hvalid.contains_iff, hvalid.mem_kinds_iff.symm,
    ?_, ?_, ?_⟩⟩
  · rw [size, kinds, List.length_map, Array.length_toList]
  · intro kind s hs
    exact (hvalid.schema?_eq_some_iff.mp hs).2
  · exact hvalid.succeeds_iff options_of_schema?_eq_none fun s hs => ⟨_, options_of_schema? hs⟩
  · exact hvalid.succeeds_iff (create_of_schema?_eq_none · .empty) fun _ => exists_create_empty
  · intro habsent
    have hnone := hvalid.schema?_eq_none_iff_not_mem.mpr habsent
    rw [← hfamily]
    exact ⟨options_of_schema?_eq_none hnone, create_of_schema?_eq_none hnone,
      createFromJson_of_schema?_eq_none hnone⟩

/-- A built-in kind is reopened for an attribute that is refused, behind one that is accepted;
then the declarations of another registrar go on. -/
theorem Grows.lookups_agree_builtin :
    let builtIn := (Family.executors.builtIn.run "executor" { family := "executor" } none).registry
    let r := (builtIn.registerAll [
      ⟨"vm", [.withDefault "heap" .int 64]⟩,
      ⟨"graph", [⟨"depth", .int, none⟩, ⟨"name", .string, some (.int 1)⟩]⟩]).registry
    ({ family := "executor" } : Registry).Grows r ∧ r.kinds = ["graph", "aot", "vm"] ∧
      r.kinds.Nodup ∧ (∃ listed, r.options "graph" = .ok listed) ∧
      r.createFromJson "crt" .null = .error (.unknownKind "executor" "crt") := by
  intro builtIn r
  have hbuiltIn : builtIn =
      (({ family := "executor" } : Registry).registerAll Builtin.executors).registry :=
    registry_run_ofBlocks _ _ _ _
  have hgrows : ({ family := "executor" } : Registry).Grows r := by
    apply Grows.registerAll
    rw [hbuiltIn]
    exact Grows.refl.registerAll Builtin.executors
  have hkinds : r.kinds = ["graph", "aot", "vm"] := by decide
  obtain ⟨hindexed, -, -, hlookups⟩ := Grows.lookups_agree hgrows
  obtain ⟨-, -, hoptions, -, -⟩ := hlookups "graph"
  obtain ⟨-, -, -, -, habsent⟩ := hlookups "crt"
  refine ⟨hgrows, hkinds, hindexed.kinds_nodup, hoptions.mpr ?_, (habsent ?_).2.2 .null⟩
  · rw [hkinds]
    decide
  · rw [hkinds]
    decide

end ComponentKinds.Registry
