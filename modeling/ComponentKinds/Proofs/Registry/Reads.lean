import ComponentKinds.Proofs.Config.Correspondence
import ComponentKinds.Proofs.Registry.Extension

/-!
# Reading the values of a component

Every value of a component that a registry created is of the kind that the schema had for it
then, since supplied values are checked against the schema and defaults were checked when they
were declared. So to read an attribute as its own kind never fails, and to read it as another
kind fails exactly if it has a value.
-/

namespace ComponentKinds

namespace Component

variable {c : Component} {k : ValueKind} {name : String}

/-- A value is read as a kind exactly if it is the value that holds what is read. -/
theorem get_eq_ok_some_iff {x : k.Carrier} :
    c.get k name = .ok (some x) ↔ c.value? name = some (.of k x) := by
  unfold get
  cases c.value? name with
  | none => simp
  | some v =>
    rw [Option.some.injEq, ← Value.read?_eq_some_iff]
    cases hread : v.read? k <;> simp [hread]

/-- Nothing is read exactly where no value is. -/
theorem get_eq_ok_none_iff : c.get k name = .ok none ↔ c.value? name = none := by
  unfold get
  cases c.value? name with
  | none => simp
  | some v => cases hread : v.read? k <;> simp [hread]

/-- Reading fails exactly on a value of another kind, and the error names both kinds. -/
theorem get_eq_error_iff {e : Error} :
    c.get k name = .error e ↔
      ∃ v, c.value? name = some v ∧ v.kind ≠ k ∧ .wrongKind name k v.kind = e := by
  unfold get
  cases c.value? name with
  | none => simp
  | some v =>
    simp only [Option.some.injEq, exists_eq_left', ne_eq, ← Value.read?_isSome_iff]
    cases v.read? k <;> simp

/-- Reading with a fallback fails as reading does. -/
theorem getOr_eq_error_iff {fallback : k.Carrier} {e : Error} :
    c.getOr k name fallback = .error e ↔ c.get k name = .error e := by
  unfold getOr
  cases c.get k name <;> simp [bind, Except.bind, pure, Except.pure]

/-- Reading with a fallback gives what is read, or else the fallback. -/
theorem getOr_eq_ok_iff {fallback x : k.Carrier} :
    c.getOr k name fallback = .ok x ↔
      c.get k name = .ok (some x) ∨ c.get k name = .ok none ∧ fallback = x := by
  unfold getOr
  cases c.get k name with
  | error e => simp [bind, Except.bind]
  | ok found => cases found <;> simp [bind, Except.bind, pure, Except.pure]

theorem isDefined_eq_false_iff : c.isDefined name = false ↔ c.value? name = none := by
  rw [isDefined, Option.isSome_eq_false_iff, Option.isNone_iff_eq_none]

/-- The fallback is given exactly if no value is there, or one that holds the same. -/
theorem getOr_eq_fallback_iff {fallback : k.Carrier} :
    c.getOr k name fallback = .ok fallback ↔
      c.isDefined name = false ∨ c.value? name = some (.of k fallback) := by
  rw [getOr_eq_ok_iff, get_eq_ok_some_iff, get_eq_ok_none_iff, isDefined_eq_false_iff]
  simp [or_comm]

/-- Every value of a component stands under the name of an attribute and is of its kind. -/
def Typed (c : Component) (s : Schema) : Prop :=
  ∀ name v, c.value? name = some v → ∃ a ∈ s.attributes, a.name = name ∧ v.kind = a.kind

/-- How an attribute of a component can be read, for what was supplied under its name. -/
structure Reads (c : Component) (a : Attribute) (Supplied : Value → Prop) : Prop where
  /-- The value is the supplied one, or else the default. -/
  value_iff : ∀ v, c.value? a.name = some v ↔
    Supplied v ∨ (∀ w, ¬Supplied w) ∧ a.default? = some v
  /-- Reading as the kind of the attribute succeeds. -/
  succeeds : ∃ found, c.get a.kind a.name = .ok found
  /-- It gives what the value holds. -/
  some_iff : ∀ x, c.get a.kind a.name = .ok (some x) ↔ c.value? a.name = some (.of a.kind x)
  /-- It gives nothing exactly if nothing was supplied and there is no default. -/
  none_iff : c.get a.kind a.name = .ok none ↔ (∀ v, ¬Supplied v) ∧ a.default? = none
  /-- Reading as another kind fails exactly if there is a value. -/
  other : ∀ k, k ≠ a.kind → c.get k a.name =
    if c.isDefined a.name then .error (.wrongKind a.name k a.kind) else .ok none

section Typed

variable {s : Schema} {a : Attribute}

/-- The value of an attribute is of its kind. -/
theorem Typed.kind_eq (h : c.Typed s) (hwf : s.WellFormed) (ha : a ∈ s.attributes) {v : Value}
    (hv : c.value? a.name = some v) : v.kind = a.kind := by
  obtain ⟨b, hb, hname, hkind⟩ := h a.name v hv
  rw [hkind, hwf.eq_of_name_eq hb ha hname]

/-- Nothing stands under a name that no attribute has. -/
theorem Typed.value?_eq_none (h : c.Typed s) (hname : ∀ a ∈ s.attributes, a.name ≠ name) :
    c.value? name = none := by
  rw [Option.eq_none_iff_forall_ne_some]
  intro v hv
  obtain ⟨a, ha, heq, _⟩ := h name v hv
  exact hname a ha heq

/-- Reading an attribute as its own kind succeeds. -/
theorem Typed.get_succeeds (h : c.Typed s) (hwf : s.WellFormed) (ha : a ∈ s.attributes) :
    ∃ found, c.get a.kind a.name = .ok found := by
  cases hget : c.get a.kind a.name with
  | ok found => exact ⟨found, rfl⟩
  | error e =>
    obtain ⟨v, hv, hkind, _⟩ := get_eq_error_iff.mp hget
    exact absurd (h.kind_eq hwf ha hv) hkind

/-- Reading an attribute as another kind fails exactly if there is a value. -/
theorem Typed.get_other (h : c.Typed s) (hwf : s.WellFormed) (ha : a ∈ s.attributes)
    (hk : k ≠ a.kind) : c.get k a.name =
      if c.isDefined a.name then .error (.wrongKind a.name k a.kind) else .ok none := by
  rw [isDefined]
  cases hv : c.value? a.name with
  | none => exact get_eq_ok_none_iff.mpr hv
  | some v =>
    have hkind := h.kind_eq hwf ha hv
    exact get_eq_error_iff.mpr ⟨v, hv, hkind ▸ Ne.symm hk, by rw [hkind]⟩

/-- A component whose values are supplied or defaults, each of the kind of its attribute, is
read in the way described. -/
theorem Typed.reads_of_values (h : c.Typed s) (hwf : s.WellFormed)
    {Supplied : String → Value → Prop}
    (values : ∀ name v, c.value? name = some v ↔ Supplied name v ∨ (∀ w, ¬Supplied name w) ∧
      ∃ a ∈ s.attributes, a.name = name ∧ a.default? = some v)
    (ha : a ∈ s.attributes) : c.Reads a (Supplied a.name) := by
  have hdefault : ∀ v, (∃ b ∈ s.attributes, b.name = a.name ∧ b.default? = some v) ↔
      a.default? = some v := by
    intro v
    constructor
    · rintro ⟨b, hb, hname, hv⟩
      rwa [← hwf.eq_of_name_eq hb ha hname]
    · exact fun hv => ⟨a, ha, rfl, hv⟩
  have hvalue : ∀ v, c.value? a.name = some v ↔
      Supplied a.name v ∨ (∀ w, ¬Supplied a.name w) ∧ a.default? = some v := by
    intro v
    rw [values, hdefault]
  refine ⟨hvalue, h.get_succeeds hwf ha, fun _ => get_eq_ok_some_iff, ?_,
    fun _ => h.get_other hwf ha⟩
  rw [get_eq_ok_none_iff, Option.eq_none_iff_forall_ne_some, Option.eq_none_iff_forall_ne_some]
  simp only [ne_eq, hvalue, not_or, not_and]
  constructor
  · intro hnone
    have hunsupplied := fun v => (hnone v).1
    exact ⟨hunsupplied, fun v => (hnone v).2 hunsupplied⟩
  · rintro ⟨hunsupplied, hnone⟩ v
    exact ⟨hunsupplied v, fun _ => hnone v⟩

end Typed

end Component

/-- A tree supplies a value under a name if a member of that name denotes it. -/
def Json.Supplies (j : Json) (name : String) (v : Value) : Prop :=
  ∃ members tree, j = .obj members ∧ (name, tree) ∈ members ∧ tree.DenotesValue v

namespace Registry

/-- A registry creates a component of a kind, with the values supplied for it. -/
inductive Yields (r : Registry) (kind : String) : (String → Value → Prop) → Component → Prop
  | create {config : Config} {c : Component} (created : r.create kind config = .ok c) :
      Yields r kind (fun name v => config.get? name = some v) c
  | createFromJson {j : Json} {c : Component} (canonical : j.Canonical)
      (created : r.createFromJson kind j = .ok c) : Yields r kind j.Supplies c

variable {r : Registry} {kind : String} {Supplied : String → Value → Prop} {c : Component}

/-- A creation from a tree that succeeds has read it as a configuration. -/
theorem exists_config_of_createFromJson {j : Json} (h : r.createFromJson kind j = .ok c) :
    ∃ config, Config.ofJson j = .ok config ∧ r.create kind config = .ok c := by
  cases hconfig : Config.ofJson j with
  | ok config => exact ⟨config, rfl, (createFromJson_eq_create hconfig r kind).symm.trans h⟩
  | error fault =>
    cases hs : r.schema? kind with
    | none =>
      rw [createFromJson_of_schema?_eq_none hs] at h
      cases h
    | some s =>
      rw [createFromJson_of_fault hs hconfig] at h
      cases h

/-- However a component was created, a configuration has what was supplied for it. -/
theorem Yields.exists_config (h : r.Yields kind Supplied c) :
    ∃ config : Config, (∀ name v, Supplied name v ↔ config.get? name = some v) ∧
      r.create kind config = .ok c := by
  cases h with
  | @create config _ created => exact ⟨config, fun _ _ => Iff.rfl, created⟩
  | @createFromJson j _ canonical created =>
    obtain ⟨config, hread, hcreate⟩ := exists_config_of_createFromJson created
    obtain ⟨members, rfl, _⟩ := (Config.ofJson_eq_ok_iff canonical).mp hread
    refine ⟨config, fun name v => ?_, hcreate⟩
    rw [Config.get?_eq_some_iff_of_ofJson canonical hread]
    simp [Json.Supplies]

/-- The values of a new component are supplied or defaults, and of the kinds of the schema. -/
theorem Yields.values (h : r.Yields kind Supplied c) (hr : r.Valid) :
    ∃ s, r.schema? kind = some s ∧ c.Typed s ∧ ∀ name v, c.value? name = some v ↔
      Supplied name v ∨ (∀ w, ¬Supplied name w) ∧
        ∃ a ∈ s.attributes, a.name = name ∧ a.default? = some v := by
  obtain ⟨config, hsupplied, hcreate⟩ := h.exists_config
  cases hs : r.schema? kind with
  | none =>
    rw [create_of_schema?_eq_none hs] at hcreate
    cases hcreate
  | some s =>
    have hwf := hr.wellFormed_of_schema? hs
    obtain ⟨haccepted, rfl⟩ := (hr.create_eq_ok_iff hs).mp hcreate
    have hvalues := @Schema.get?_fill config _ hwf.names_nodup
    refine ⟨s, rfl, fun name v hv => ?_, fun name v => ?_⟩
    · rcases (hvalues name v).mp hv with hv | ⟨_, a, ha, hname, hdefault⟩
      · exact hwf.not_rejection_iff.mp fun e => haccepted name v e (Keyed.mem_entries_iff.mpr hv)
      · exact ⟨a, ha, hname, hwf.defaults_fit a ha v hdefault⟩
    · simp only [hsupplied, ← ne_eq, ← Option.eq_none_iff_forall_ne_some]
      exact hvalues name v

/-- An attribute that was accepted stays declared while the registry grows. -/
theorem mem_attributes_of_addAttribute {r₀ r₁ : Registry} (h₀ : r₀.Valid) {a : Attribute}
    (hadd : r₀.addAttribute kind a = .ok r₁) (hgrows : r₁.Grows r) {s : Schema}
    (hs : r.schema? kind = some s) : a ∈ s.attributes := by
  obtain ⟨old, new, _, hnew, _, _, hschemas⟩ := h₀.schema?_addAttribute hadd
  have hadded : r₁.schema? kind = some new := by rw [hschemas, if_pos rfl]
  obtain ⟨added, hlater⟩ :=
    (hgrows.extension (h₀.addAttribute hadd)).schema?_extend kind new hadded
  rw [hs] at hlater
  cases hlater
  obtain ⟨_, rfl⟩ := Schema.add_eq_ok_iff.mp hnew
  simp [Schema.extend]

/-- A component that a registry created is read by the schema that its kind had then. As its
own kind every attribute can be read, and gives what was supplied or else the default; as
another kind it cannot if it has a value. Other names have nothing to read. A fallback stands
in for a missing value alone. A default that was given as a Lean value is read as that. -/
theorem Yields.reads (h : r.Yields kind Supplied c) (hr : r.Reachable) :
    ∃ s, r.schema? kind = some s ∧
      (∀ a ∈ s.attributes, c.Reads a (Supplied a.name)) ∧
      (∀ name, (∀ a ∈ s.attributes, a.name ≠ name) → ∀ k, c.get k name = .ok none) ∧
      (∀ k name fallback,
        (c.getOr k name fallback = .ok fallback ↔
          c.isDefined name = false ∨ c.value? name = some (.of k fallback)) ∧
        (∀ x, c.get k name = .ok (some x) → c.getOr k name fallback = .ok x) ∧
        ∀ e, c.getOr k name fallback = .error e ↔ c.get k name = .error e) ∧
      ∀ (r₀ r₁ : Registry) (name : String) (k : ValueKind) (default : k.Carrier), r₀.Reachable →
        r₀.addAttribute kind (.withDefault name k default) = .ok r₁ → r₁.Grows r →
        (∃ x, c.get k name = .ok (some x)) ∧
          ((∀ v, ¬Supplied name v) → c.get k name = .ok (some default)) := by
  obtain ⟨s, hs, htyped, hvalues⟩ := h.values hr.valid
  have hwf := hr.valid.wellFormed_of_schema? hs
  have hreads : ∀ a ∈ s.attributes, c.Reads a (Supplied a.name) :=
    fun a ha => htyped.reads_of_values hwf hvalues ha
  refine ⟨s, hs, hreads, ?_, ?_, ?_⟩
  · intro name hname k
    exact Component.get_eq_ok_none_iff.mpr (htyped.value?_eq_none hname)
  · intro k name fallback
    exact ⟨Component.getOr_eq_fallback_iff,
      fun x hx => Component.getOr_eq_ok_iff.mpr (Or.inl hx), fun e =>
      Component.getOr_eq_error_iff⟩
  · intro r₀ r₁ name k default hr₀ hadd hgrows
    have ha := mem_attributes_of_addAttribute hr₀.valid hadd hgrows hs
    have hattribute := hreads _ ha
    refine ⟨?_, fun hunsupplied => ?_⟩
    · obtain ⟨found, hfound⟩ := hattribute.succeeds
      cases found with
      | some x => exact ⟨x, hfound⟩
      | none => cases (hattribute.none_iff.mp hfound).2
    · exact (hattribute.some_iff default).mpr
        ((hattribute.value_iff _).mpr (Or.inr ⟨hunsupplied, rfl⟩))

/-- A kind is reopened after its default was declared; a component of it is created from an
object that leaves the default out. -/
theorem Yields.reads_graph :
    let r₀ := ({ family := "executor" } : Registry).declare "graph"
    let a : Attribute := .withDefault "depth" .int 7
    let r₁ := (r₀.addAttributes "graph" [a]).registry
    let r := (r₁.register ⟨"graph", [⟨"name", .string, none⟩]⟩).registry
    let j := Json.obj [("name", .str "x")]
    ∃ c, r.Reachable ∧ r.Yields "graph" j.Supplies c ∧
      c.get .int "depth" = .ok (some 7) ∧
      c.get .bool "depth" = .error (.wrongKind "depth" .bool .int) ∧
      c.get .bool "other" = .ok none := by
  intro r₀ a r₁ r j
  let c : Component := ⟨"executor", "graph", .ofList [("name", .string "x"), ("depth", .int 7)]⟩
  have hr₀ : r₀.Reachable := ⟨"executor", .register ⟨"graph", []⟩ .refl⟩
  have hadd : r₀.addAttribute "graph" a = .ok r₁ := by decide
  have hgrows : r₁.Grows r := .register _ .refl
  have hr : r.Reachable :=
    ⟨"executor", .register ⟨"graph", [⟨"name", .string, none⟩]⟩ (.register ⟨"graph", [a]⟩ .refl)⟩
  have h : r.Yields "graph" j.Supplies c := .createFromJson (by decide) (by decide)
  obtain ⟨s, hs, hreads, hother, -, hdefault⟩ := Yields.reads h hr
  have ha := mem_attributes_of_addAttribute hr₀.valid hadd hgrows hs
  have hschema : s = ⟨"graph", [a, ⟨"name", .string, none⟩]⟩ :=
    Option.some.inj (hs.symm.trans (by decide))
  refine ⟨c, hr, h, (hdefault r₀ r₁ "depth" .int 7 hr₀ hadd hgrows).2 ?_,
    (hreads a ha).other .bool (by decide), hother "other" ?_ .bool⟩
  · rintro v ⟨members, tree, hobj, hmem, _⟩
    rw [← Json.obj.inj hobj] at hmem
    simp at hmem
  · rw [hschema]
    decide

end Registry

end ComponentKinds
