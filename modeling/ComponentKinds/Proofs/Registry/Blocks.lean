import ComponentKinds.Proofs.Registry.Steps

/-!
# What a block of declarations does to a registry

A block declares its kind and then adds attributes up to the first that is refused. What it
leaves of the kind, and the error that ends it, follow from the schema that the kind had before
alone; nothing happens to other kinds.
-/

namespace ComponentKinds

namespace Schema

/-- Add attributes up to the first that cannot be added: the schema with those before it, and
the error of that attribute, if there is one. -/
def addWhile (s : Schema) : List Attribute → Schema × Option Error
  | [] => (s, none)
  | a :: rest =>
    match s.add a with
    | .ok t => t.addWhile rest
    | .error e => (s, some e)

variable {s : Schema}

theorem addWhile_cons_of_ok {t : Schema} {a : Attribute} (h : s.add a = .ok t)
    (rest : List Attribute) : s.addWhile (a :: rest) = t.addWhile rest := by
  simp only [addWhile, h]

theorem addWhile_cons_of_error {a : Attribute} {e : Error} (h : s.add a = .error e)
    (rest : List Attribute) : s.addWhile (a :: rest) = (s, some e) := by
  simp only [addWhile, h]

/-- All attributes are added exactly if none is refused, and the first that is refused is the
error. -/
theorem addAll_eq_addWhile (s : Schema) (attributes : List Attribute) :
    s.addAll attributes = match (s.addWhile attributes).2 with
      | none => .ok (s.addWhile attributes).1
      | some e => .error e := by
  induction attributes generalizing s with
  | nil => rfl
  | cons a rest ih =>
    rw [addAll]
    cases hadd : s.add a with
    | ok t =>
      rw [addWhile_cons_of_ok hadd]
      exact ih t
    | error e => rw [addWhile_cons_of_error hadd]

/-- No attribute is refused exactly if all of them together make a well-formed schema. -/
theorem WellFormed.addWhile_eq_none_iff (h : s.WellFormed) (attributes : List Attribute) :
    (s.addWhile attributes).2 = none ↔
      ({ s with attributes := s.attributes ++ attributes } : Schema).WellFormed := by
  have hall := s.addAll_eq_addWhile attributes
  constructor
  · intro hnone
    rw [hnone] at hall
    obtain ⟨hwell, heq⟩ := (h.addAll_eq_ok_iff attributes).mp hall
    rw [heq]
    exact hwell
  · intro hwell
    rw [(h.addAll_eq_ok_iff attributes).mpr ⟨hwell, rfl⟩] at hall
    cases herror : (s.addWhile attributes).2 with
    | none => rfl
    | some e =>
      rw [herror] at hall
      cases hall

/-- Where no attribute is refused, all of them stand at the end. -/
theorem WellFormed.addWhile_eq_of_none (h : s.WellFormed) {attributes : List Attribute}
    (hnone : (s.addWhile attributes).2 = none) :
    (s.addWhile attributes).1 = { s with attributes := s.attributes ++ attributes } := by
  have hall := s.addAll_eq_addWhile attributes
  rw [hnone] at hall
  exact ((h.addAll_eq_ok_iff attributes).mp hall).2.symm

end Schema

/-- What a registration leaves behind differs from the registry before in one kind at most, which
has the given schema then. A new kind is listed last. -/
structure Outcome.Sets (o : Outcome) (r : Registry) (kind : String) (s : Schema)
    (error? : Option Error) : Prop where
  /-- Positions and schemas are in step. -/
  valid : o.registry.Valid
  /-- The error that ended the registration. -/
  error?_eq : o.error? = error?
  /-- The family stays. -/
  family_eq : o.registry.family = r.family
  /-- Only the kind may be listed in addition. -/
  kinds_eq : o.registry.kinds = if kind ∈ r.kinds then r.kinds else r.kinds ++ [kind]
  /-- Other kinds keep their schemas. -/
  schema?_eq : ∀ other, o.registry.schema? other = if other = kind then some s else r.schema? other

namespace Registry

variable {r : Registry}

/-- A kind that has its schema already may be said to be set to it. -/
private theorem schema?_eq_ite {kind : String} {s : Schema} (hs : r.schema? kind = some s)
    (other : String) : r.schema? other = if other = kind then some s else r.schema? other := by
  by_cases hother : other = kind
  · rw [if_pos hother, hother, hs]
  · rw [if_neg hother]

/-- Attributes are added to a kind as they are to its schema. -/
theorem Valid.sets_addAttributes (h : r.Valid) {kind : String} {s : Schema}
    (hs : r.schema? kind = some s) (attributes : List Attribute) :
    (r.addAttributes kind attributes).Sets r kind (s.addWhile attributes).1
      (s.addWhile attributes).2 := by
  have hkind : kind ∈ r.kinds := h.mem_kinds_iff.mpr ⟨s, hs⟩
  induction attributes generalizing r s with
  | nil => exact ⟨h, rfl, rfl, (if_pos hkind).symm, schema?_eq_ite hs⟩
  | cons a rest ih =>
    rw [addAttributes]
    cases hadd : r.addAttribute kind a with
    | error e =>
      have hrefused := (addAttribute_eq_error_iff hs).mp hadd
      rw [Schema.addWhile_cons_of_error hrefused]
      exact ⟨h, rfl, rfl, (if_pos hkind).symm, schema?_eq_ite hs⟩
    | ok r' =>
      obtain ⟨s', t, hs', ht, hfamily, hkinds, hschemas⟩ := h.schema?_addAttribute hadd
      cases hs.symm.trans hs'
      have ht' : r'.schema? kind = some t := by rw [hschemas, if_pos rfl]
      have hrest := ih (h.addAttribute hadd) ht' (hkinds ▸ hkind)
      rw [Schema.addWhile_cons_of_ok ht]
      refine ⟨hrest.valid, hrest.error?_eq, hrest.family_eq.trans hfamily, ?_, fun other => ?_⟩
      · rw [← hkinds]
        exact hrest.kinds_eq
      · rw [hrest.schema?_eq, hschemas]
        by_cases hother : other = kind
        · rw [if_pos hother, if_pos hother]
        · rw [if_neg hother, if_neg hother, if_neg hother]

/-- A block adds its attributes to the schema of its kind, or to an empty one if the kind is
new. -/
theorem Valid.sets_register (h : r.Valid) (block : Block) :
    let before := (r.schema? block.kind).getD { name := block.kind }
    (r.register block).Sets r block.kind (before.addWhile block.attributes).1
      (before.addWhile block.attributes).2 := by
  intro before
  have hdeclared := h.declare block.kind
  have hbefore : (r.declare block.kind).schema? block.kind = some before := by
    rw [h.schema?_declare, if_pos rfl]
  have hadded := hdeclared.sets_addAttributes hbefore block.attributes
  have hkind : block.kind ∈ (r.declare block.kind).kinds := hdeclared.mem_kinds_iff.mpr ⟨_, hbefore⟩
  refine ⟨hadded.valid, hadded.error?_eq, ?_, ?_, fun other => ?_⟩
  · rw [register, hadded.family_eq, family_declare]
  · rw [register, hadded.kinds_eq, if_pos hkind, h.kinds_declare]
  · rw [register, hadded.schema?_eq, h.schema?_declare]
    by_cases hother : other = block.kind
    · rw [if_pos hother, if_pos hother]
    · rw [if_neg hother, if_neg hother, if_neg hother]

end Registry

end ComponentKinds
