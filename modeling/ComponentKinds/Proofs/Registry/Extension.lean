import ComponentKinds.Proofs.Registry.Creation
import ComponentKinds.Proofs.Registry.Steps

/-!
# What later declarations leave of earlier creations

Declarations only put attributes behind those that a kind has. A schema that is extended in
this way rejects no value that was accepted before, and it rejects a value of the wrong kind
with the same error. So a component that could be created still can be, with the same values
and the defaults of what has been added, and an error about the kind of a value stays.
-/

namespace ComponentKinds

namespace Schema

/-- The schema with further attributes behind those that it has. -/
def extend (s : Schema) (added : List Attribute) : Schema :=
  { s with attributes := s.attributes ++ added }

variable {s : Schema} {added : List Attribute}

/-- An added attribute has a new name. -/
theorem WellFormed.name_ne_of_extend (h : (s.extend added).WellFormed) {a b : Attribute}
    (ha : a ∈ s.attributes) (hb : b ∈ added) : a.name ≠ b.name := by
  have hnodup := h.names_nodup
  rw [extend, List.map_append] at hnodup
  exact (List.nodup_append.mp hnodup).2.2 _ (List.mem_map_of_mem ha) _ (List.mem_map_of_mem hb)

/-- What an extended schema rejects was rejected before, though its name may have been
unknown then. -/
theorem WellFormed.rejection_of_extend (h : (s.extend added).WellFormed) {name : String}
    {value : Value} {e : Error} (he : (s.extend added).Rejection name value e) :
    ∃ e', s.Rejection name value e' := by
  cases he with
  | unknown undeclared =>
    exact ⟨_, .unknown fun a ha => undeclared a (List.mem_append_left _ ha)⟩
  | @mismatch a declared name_eq kind_ne =>
    rcases List.mem_append.mp declared with hold | hadded
    · exact ⟨_, .mismatch hold name_eq kind_ne⟩
    · exact ⟨_, .unknown fun b hb => name_eq ▸ h.name_ne_of_extend hb hadded⟩

/-- A value of the wrong kind stays one. -/
theorem Rejection.extend {name : String} {value : Value} {other : String}
    {expected actual : ValueKind} (h : s.Rejection name value (.wrongKind other expected actual)) :
    (s.extend added).Rejection name value (.wrongKind other expected actual) := by
  cases h with
  | mismatch declared name_eq kind_ne =>
    exact .mismatch (List.mem_append_left _ declared) name_eq kind_ne

/-- A wrong kind under the least rejected name is still the first rejection. -/
theorem FirstRejection.extend (h : (s.extend added).WellFormed) {entries : List (String × Value)}
    {other : String} {expected actual : ValueKind}
    (hfirst : s.FirstRejection entries (.wrongKind other expected actual)) :
    (s.extend added).FirstRejection entries (.wrongKind other expected actual) := by
  obtain ⟨name, value, hmem, he, hleast⟩ := hfirst
  refine ⟨name, value, hmem, he.extend, ?_⟩
  intro other' v e' hother he'
  obtain ⟨e'', he''⟩ := h.rejection_of_extend he'
  exact hleast other' v e'' hother he''

section Values

variable {config : Config}
  (haccepted : ∀ name value e, (name, value) ∈ config.entries → ¬s.Rejection name value e)

include haccepted

/-- Values that are accepted stay accepted. -/
theorem WellFormed.accepted_extend (h : (s.extend added).WellFormed) {name : String}
    {value : Value} {e : Error} (hmem : (name, value) ∈ config.entries) :
    ¬(s.extend added).Rejection name value e := by
  intro he
  obtain ⟨e', he'⟩ := h.rejection_of_extend he
  exact haccepted name value e' hmem he'

/-- A configuration that is accepted gives no value to an added attribute. -/
theorem WellFormed.get?_added (h : (s.extend added).WellFormed) {a : Attribute}
    (ha : a ∈ added) : config.get? a.name = none := by
  cases hsupplied : config.get? a.name with
  | none => rfl
  | some v =>
    have hmem := Keyed.mem_entries_iff.mpr hsupplied
    exact absurd (.unknown fun b hb => h.name_ne_of_extend hb ha) (haccepted a.name v _ hmem)

/-- An added attribute was undefined before. -/
theorem WellFormed.get?_fill_added (h : (s.extend added).WellFormed) {a : Attribute}
    (ha : a ∈ added) : (fill config s.attributes).get? a.name = none := by
  have hs : s.WellFormed := h.of_append
  rw [Option.eq_none_iff_forall_ne_some]
  intro v hv
  rcases (get?_fill hs.names_nodup a.name v).mp hv with hsupplied | ⟨_, b, hb, hname, _⟩
  · rw [h.get?_added haccepted ha] at hsupplied
    cases hsupplied
  · exact h.name_ne_of_extend hb ha hname

/-- Filling in the defaults of an extended schema leaves the values from before, and gives
their defaults to the added attributes. -/
theorem WellFormed.get?_fill_extend (h : (s.extend added).WellFormed) (name : String) (v : Value) :
    (fill config (s.extend added).attributes).get? name = some v ↔
      (fill config s.attributes).get? name = some v ∨
        ∃ a ∈ added, a.name = name ∧ a.default? = some v := by
  have hs : s.WellFormed := h.of_append
  rw [get?_fill h.names_nodup, get?_fill hs.names_nodup]
  constructor
  · rintro (hsupplied | ⟨hnone, a, ha, hdefault⟩)
    · exact Or.inl (Or.inl hsupplied)
    · rcases List.mem_append.mp ha with ha | ha
      · exact Or.inl (Or.inr ⟨hnone, a, ha, hdefault⟩)
      · exact Or.inr ⟨a, ha, hdefault⟩
  · rintro ((hsupplied | ⟨hnone, a, ha, hdefault⟩) | ⟨a, ha, rfl, hdefault⟩)
    · exact Or.inl hsupplied
    · exact Or.inr ⟨hnone, a, List.mem_append_left _ ha, hdefault⟩
    · exact Or.inr ⟨h.get?_added haccepted ha, a, List.mem_append_right _ ha, rfl, hdefault⟩

end Values

end Schema

namespace Registry

/-- A registry of the same family in which the schemas of all kinds are extended. -/
structure Extension (r s : Registry) : Prop where
  /-- Positions and schemas are in step. -/
  valid : s.Valid
  /-- The family stays. -/
  family_eq : s.family = r.family
  /-- The schema of a kind has further attributes at most. -/
  schema?_extend : ∀ kind schema, r.schema? kind = some schema →
    ∃ added, s.schema? kind = some (schema.extend added)

/-- Nothing is added at first. -/
theorem Valid.extension_refl {r : Registry} (h : r.Valid) : r.Extension r := by
  refine ⟨h, rfl, fun kind schema hs => ⟨[], ?_⟩⟩
  simpa [Schema.extend] using hs

/-- Declaring a kind leaves the schemas of all kinds that have one. -/
theorem Extension.declare {r s : Registry} (h : r.Extension s) (declared : String) :
    r.Extension (s.declare declared) := by
  refine ⟨h.valid.declare declared, (family_declare s declared).trans h.family_eq, ?_⟩
  intro kind schema hs
  obtain ⟨added, hadded⟩ := h.schema?_extend kind schema hs
  refine ⟨added, ?_⟩
  rw [h.valid.schema?_declare]
  split
  · next heq => rw [← heq, hadded, Option.getD_some]
  · exact hadded

/-- An accepted attribute extends the schema of its kind by one. -/
theorem Extension.addAttribute {r s t : Registry} (h : r.Extension s) {changed : String}
    {a : Attribute} (hadd : s.addAttribute changed a = .ok t) : r.Extension t := by
  obtain ⟨old, new, hold, hnew, hfamily, _, hschemas⟩ := h.valid.schema?_addAttribute hadd
  refine ⟨h.valid.addAttribute hadd, hfamily.trans h.family_eq, ?_⟩
  intro kind schema hs
  obtain ⟨added, hadded⟩ := h.schema?_extend kind schema hs
  rw [hschemas]
  split
  · next heq =>
    subst heq
    rw [hadded] at hold
    cases hold
    obtain ⟨_, rfl⟩ := Schema.add_eq_ok_iff.mp hnew
    exact ⟨added ++ [a], by simp [Schema.extend]⟩
  · exact ⟨added, hadded⟩

/-- While a registry grows, its schemas are extended. -/
theorem Grows.extension {r s : Registry} (h : r.Grows s) (hr : r.Valid) : r.Extension s :=
  h.induction (fun _ kind hs => hs.declare kind) (fun _ _ _ _ hs hadd => hs.addAttribute hadd)
    hr.extension_refl

/-- A component that can be created can still be created after further declarations, with the
same values and the defaults of the attributes that were added to its kind. A value of the
wrong kind is still answered by the same error. -/
theorem Grows.create_kept {r s : Registry} (h : r.Grows s) (hr : r.Reachable) (kind : String)
    (config : Config) :
    (∀ c, r.create kind config = .ok c → ∃ schema added c', r.schema? kind = some schema ∧
      s.schema? kind = some { schema with attributes := schema.attributes ++ added } ∧
      s.create kind config = .ok c' ∧ c'.family = c.family ∧ c'.kind = c.kind ∧
      (∀ name v, c.value? name = some v → c'.value? name = some v) ∧
      ∀ name v, c.value? name = none ∧ c'.value? name = some v ↔
        ∃ a ∈ added, a.name = name ∧ a.default? = some v) ∧
    ∀ name expected actual, r.create kind config = .error (.wrongKind name expected actual) →
      s.create kind config = .error (.wrongKind name expected actual) := by
  have hgrown := h.extension hr.valid
  cases hs : r.schema? kind with
  | none =>
    simp only [create_of_schema?_eq_none hs]
    exact ⟨nofun, nofun⟩
  | some schema =>
    obtain ⟨added, hadded⟩ := hgrown.schema?_extend kind schema hs
    have hextended := hgrown.valid.wellFormed_of_schema? hadded
    constructor
    · intro c hc
      obtain ⟨haccepted, rfl⟩ := (hr.valid.create_eq_ok_iff hs).mp hc
      have hcreate := (hgrown.valid.create_eq_ok_iff hadded).mpr
        ⟨fun name value e hmem => hextended.accepted_extend haccepted hmem, rfl⟩
      have hvalue := hextended.get?_fill_extend haccepted
      have hundefined := fun a (ha : a ∈ added) => hextended.get?_fill_added haccepted ha
      refine ⟨schema, added, _, rfl, hadded, hcreate, hgrown.family_eq, rfl, ?_, ?_⟩
      · exact fun name v hv => (hvalue name v).mpr (Or.inl hv)
      · intro name v
        constructor
        · rintro ⟨hnone, hv⟩
          rcases (hvalue name v).mp hv with hold | hnew
          · rw [Component.value?, hold] at hnone
            cases hnone
          · exact hnew
        · rintro ⟨a, ha, rfl, hdefault⟩
          exact ⟨hundefined a ha, (hvalue a.name v).mpr (Or.inr ⟨a, ha, rfl, hdefault⟩)⟩
    · intro name expected actual herror
      have hfirst := (hr.valid.create_eq_error_iff hs).mp herror
      exact (hgrown.valid.create_eq_error_iff hadded).mpr (hfirst.extend hextended)

/-- A kind is reopened and a repeated attribute refused. A creation that succeeded keeps its
value, and one that had a value of the wrong kind keeps its error. -/
theorem Grows.create_kept_reopened :
    let r := (({ family := "executor" } : Registry).register
      { kind := "graph", attributes := [.withDefault "depth" .int 1] }).registry
    let s := (r.register { kind := "graph", attributes := [.withDefault "eager" .bool true,
      .withDefault "depth" .string "x"] }).registry
    let config := Keyed.ofList [("depth", .int 5)]
    let wrong := Keyed.ofList [("depth", .bool true), ("eager", .int 0)]
    r.Grows s ∧ r.Reachable ∧
      (∃ c', s.create "graph" config = .ok c' ∧ c'.value? "depth" = some (.int 5)) ∧
      s.create "graph" wrong = .error (.wrongKind "depth" .int .bool) := by
  intro r s config wrong
  have hgrows : r.Grows s := .register _ .refl
  have hreachable : r.Reachable := ⟨"executor", .register _ .refl⟩
  obtain ⟨hkept, _⟩ := Grows.create_kept hgrows hreachable "graph" config
  obtain ⟨_, hwrong⟩ := Grows.create_kept hgrows hreachable "graph" wrong
  refine ⟨hgrows, hreachable, ?_, hwrong _ _ _ (by decide)⟩
  let c : Component := { family := "executor", kind := "graph", attributes := config }
  obtain ⟨_, _, c', _, _, hc', _, _, hvalues, _⟩ := hkept c (by decide)
  exact ⟨c', hc', hvalues "depth" (.int 5) (by decide)⟩

end Registry

end ComponentKinds
