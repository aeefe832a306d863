import ComponentKinds.Registry.Create
import ComponentKinds.Proofs.Keyed.Ordered
import ComponentKinds.Proofs.Registry.Reachable

/-!
# What a creation comes to

The check visits the configuration by name and the defaults are filled in by declaration.
Neither order shows in the result. The least name that is rejected decides the error, and
if no name is rejected, then each attribute has the value supplied for it, or else its
default.
-/

namespace ComponentKinds

namespace Schema

/-- The errors for a value under a name that a schema does not accept: no attribute has the
name, or the attribute that has it is of another kind. -/
inductive Rejection (s : Schema) (name : String) (value : Value) : Error → Prop
  | unknown (undeclared : ∀ a ∈ s.attributes, a.name ≠ name) :
      Rejection s name value (.schema s.name (.unknownAttribute name))
  | mismatch {a : Attribute} (declared : a ∈ s.attributes) (name_eq : a.name = name)
      (kind_ne : value.kind ≠ a.kind) : Rejection s name value (.wrongKind name a.kind value.kind)

/-- A rejected value ends the check, whatever follows it. -/
theorem WellFormed.check_cons_of_rejection {s : Schema} (h : s.WellFormed) {name : String}
    {value : Value} {e : Error} (he : s.Rejection name value e) (rest : List (String × Value)) :
    s.check ((name, value) :: rest) = .error e := by
  cases he with
  | unknown undeclared => simp only [check, attribute?_eq_none_iff.mpr undeclared]
  | mismatch declared name_eq kind_ne =>
    simp only [check, h.attribute?_eq_some_iff.mpr ⟨declared, name_eq⟩, if_neg kind_ne]

/-- A value that is not rejected leaves the result to what follows it. -/
theorem WellFormed.check_cons_of_accepted {s : Schema} (h : s.WellFormed) {name : String}
    {value : Value} (haccepted : ∀ e, ¬s.Rejection name value e)
    (rest : List (String × Value)) : s.check ((name, value) :: rest) = s.check rest := by
  cases hfind : s.attribute? name with
  | none => exact absurd (.unknown (attribute?_eq_none_iff.mp hfind)) (haccepted _)
  | some a =>
    obtain ⟨declared, name_eq⟩ := h.attribute?_eq_some_iff.mp hfind
    by_cases hkind : value.kind = a.kind
    · simp only [check, hfind, if_pos hkind]
    · exact absurd (.mismatch declared name_eq hkind) (haccepted _)

/-- A value is rejected for one reason only. -/
theorem WellFormed.rejection_unique {s : Schema} (h : s.WellFormed) {name : String}
    {value : Value} {e e' : Error} (he : s.Rejection name value e)
    (he' : s.Rejection name value e') : e = e' := by
  have hcheck := h.check_cons_of_rejection he []
  rw [h.check_cons_of_rejection he' []] at hcheck
  exact (Except.error.inj hcheck).symm

/-- Values pass the check exactly if none of them is rejected. -/
theorem WellFormed.check_eq_ok_iff {s : Schema} (h : s.WellFormed)
    {entries : List (String × Value)} :
    s.check entries = .ok () ↔ ∀ name value e, (name, value) ∈ entries →
      ¬s.Rejection name value e := by
  induction entries with
  | nil => simp [check]
  | cons entry rest ih =>
    obtain ⟨name, value⟩ := entry
    by_cases hhead : ∃ e, s.Rejection name value e
    · obtain ⟨e, he⟩ := hhead
      rw [h.check_cons_of_rejection he]
      exact ⟨nofun, fun hall => absurd he (hall name value e (by simp))⟩
    · rw [not_exists] at hhead
      rw [h.check_cons_of_accepted hhead, ih]
      constructor
      · intro hrest other v e hmem he
        rcases List.mem_cons.mp hmem with heq | hmem
        · cases heq
          exact hhead e he
        · exact hrest other v e hmem he
      · exact fun hall other v e hmem => hall other v e (List.mem_cons_of_mem _ hmem)

/-- A value is rejected under the least of all names that are. -/
def FirstRejection (s : Schema) (entries : List (String × Value)) (e : Error) : Prop :=
  Entries.Least s.Rejection entries e

/-- The check of ordered entries fails with the first rejection. -/
theorem WellFormed.check_eq_error_iff {s : Schema} (h : s.WellFormed)
    {entries : List (String × Value)} (hsorted : Entries.Sorted entries) {e : Error} :
    s.check entries = .error e ↔ s.FirstRejection entries e := by
  unfold FirstRejection
  induction entries with
  | nil => simp [check, Entries.Least]
  | cons entry rest ih =>
    obtain ⟨name, value⟩ := entry
    by_cases hhead : ∃ e, s.Rejection name value e
    · obtain ⟨e', he'⟩ := hhead
      rw [h.check_cons_of_rejection he', Except.error.injEq,
        hsorted.least_cons_of_fails he' fun _ => h.rejection_unique he']
    · rw [not_exists] at hhead
      rw [h.check_cons_of_accepted hhead, Entries.least_cons_of_not hhead]
      exact ih (Entries.sorted_cons.mp hsorted).2

/-- Filling leaves every supplied value and adds the defaults of the other attributes. -/
theorem get?_fill {config : Config} {attributes : List Attribute}
    (hnodup : (attributes.map (·.name)).Nodup) (name : String) (value : Value) :
    (fill config attributes).get? name = some value ↔ config.get? name = some value ∨
      config.get? name = none ∧ ∃ a ∈ attributes, a.name = name ∧ a.default? = some value := by
  induction attributes generalizing config with
  | nil => simp [fill]
  | cons a rest ih =>
    rw [List.map_cons, List.nodup_cons] at hnodup
    obtain ⟨hnew, hrest⟩ := hnodup
    have hother : a.name = name → ¬∃ b ∈ rest, b.name = name ∧ b.default? = some value := by
      rintro rfl ⟨b, hb, hname, _⟩
      exact hnew (List.mem_map.mpr ⟨b, hb, hname⟩)
    unfold fill
    cases hdefault : a.default? with
    | none =>
      rw [ih hrest]
      simp [hdefault]
    | some v =>
      simp only [ih hrest, List.mem_cons, exists_eq_or_imp, hdefault, Option.some.injEq]
      cases hsupplied : config.get? a.name with
      | some w =>
        have hcontains : config.contains a.name = true := by
          simp [Keyed.contains, hsupplied]
        rw [if_pos hcontains]
        by_cases hname : a.name = name
        · subst hname
          simp [hsupplied]
        · simp [hname]
      | none =>
        have hcontains : ¬config.contains a.name = true := by
          simp [Keyed.contains, hsupplied]
        rw [if_neg hcontains, Keyed.get?_insert]
        by_cases hname : a.name = name
        · subst hname
          simp only [ite_true, Option.some.injEq, hsupplied, hother rfl, or_false, reduceCtorEq,
            false_and, false_or, true_and]
        · simp [hname, Ne.symm hname]

end Schema

namespace Registry

/-- What the creation of a component comes to, without regard to the order in which names
are checked and defaults are filled in. -/
inductive Creates (r : Registry) (kind : String) (config : Config) :
    Except Error Component → Prop
  | unknownKind (undeclared : ∀ s ∈ r.schemas, s.name ≠ kind) :
      Creates r kind config (.error (.unknownKind r.family kind))
  | rejected {s : Schema} {e : Error} (declared : s ∈ r.schemas) (name_eq : s.name = kind)
      (first : s.FirstRejection config.entries e) : Creates r kind config (.error e)
  | created {s : Schema} {c : Component} (declared : s ∈ r.schemas) (name_eq : s.name = kind)
      (accepted : ∀ name value e, (name, value) ∈ config.entries → ¬s.Rejection name value e)
      (family_eq : c.family = r.family) (kind_eq : c.kind = kind)
      (values : ∀ name value, c.value? name = some value ↔ config.get? name = some value ∨
        config.get? name = none ∧
          ∃ a ∈ s.attributes, a.name = name ∧ a.default? = some value) :
      Creates r kind config (.ok c)

/-- The creation of a component of a kind whose schema is known. -/
theorem create_of_schema? {r : Registry} {kind : String} {s : Schema}
    (hs : r.schema? kind = some s) (config : Config) :
    r.create kind config = (s.check config.entries).map fun _ =>
      { family := r.family, kind, attributes := Schema.fill config s.attributes } := by
  simp only [create, lookup, hs, bind, Except.bind, pure, Except.pure]
  cases s.check config.entries <;> rfl

/-- The creation of a component of a kind without a schema. -/
theorem create_of_schema?_eq_none {r : Registry} {kind : String} (hs : r.schema? kind = none)
    (config : Config) : r.create kind config = .error (.unknownKind r.family kind) := by
  simp only [create, lookup, hs]
  rfl

/-- The schema of a kind is well formed. -/
theorem Valid.wellFormed_of_schema? {r : Registry} (h : r.Valid) {kind : String} {s : Schema}
    (hs : r.schema? kind = some s) : s.WellFormed :=
  h.wellFormed s (h.schema?_eq_some_iff.mp hs).1

/-- The creation of a component of a declared kind fails with the first rejection. -/
theorem Valid.create_eq_error_iff {r : Registry} (h : r.Valid) {kind : String} {s : Schema}
    (hs : r.schema? kind = some s) {config : Config} {e : Error} :
    r.create kind config = .error e ↔ s.FirstRejection config.entries e := by
  rw [← (h.wellFormed_of_schema? hs).check_eq_error_iff config.sorted, create_of_schema? hs]
  cases s.check config.entries <;> simp [Except.map]

/-- The creation of a component of a declared kind succeeds if no value is rejected, and fills
in the defaults. -/
theorem Valid.create_eq_ok_iff {r : Registry} (h : r.Valid) {kind : String} {s : Schema}
    (hs : r.schema? kind = some s) {config : Config} {c : Component} :
    r.create kind config = .ok c ↔
      (∀ name value e, (name, value) ∈ config.entries → ¬s.Rejection name value e) ∧
        { family := r.family, kind, attributes := Schema.fill config s.attributes } = c := by
  rw [← (h.wellFormed_of_schema? hs).check_eq_ok_iff, create_of_schema? hs]
  cases s.check config.entries <;> simp [Except.map]

/-- A creation comes to exactly one result, which depends on the least rejected name alone
or else on the supplied values and the defaults. -/
theorem create_eq_iff {r : Registry} (h : r.Reachable) (kind : String) (config : Config)
    (result : Except Error Component) :
    (r.create kind config = result ↔ r.Creates kind config result) ∧
      ∀ name, (SchemaFault.unknownAttribute name).message = "unknown attribute " ++ name := by
  refine ⟨?_, fun _ => rfl⟩
  have hvalid := h.valid
  constructor
  · rintro rfl
    cases hs : r.schema? kind with
    | none =>
      rw [create_of_schema?_eq_none hs]
      exact .unknownKind (hvalid.schema?_eq_none_iff.mp hs)
    | some s =>
      obtain ⟨declared, name_eq⟩ := hvalid.schema?_eq_some_iff.mp hs
      have hwf := hvalid.wellFormed s declared
      rw [create_of_schema? hs]
      cases hcheck : s.check config.entries with
      | error e =>
        have first := (hwf.check_eq_error_iff config.sorted).mp hcheck
        exact .rejected declared name_eq first
      | ok _ =>
        refine .created declared name_eq ?_ rfl rfl ?_
        · exact hwf.check_eq_ok_iff.mp hcheck
        · exact Schema.get?_fill hwf.names_nodup
  · intro hcreates
    cases hcreates with
    | unknownKind undeclared =>
      exact create_of_schema?_eq_none (hvalid.schema?_eq_none_iff.mpr undeclared) config
    | @rejected s e declared name_eq first =>
      have hcheck := ((hvalid.wellFormed s declared).check_eq_error_iff config.sorted).mpr first
      rw [create_of_schema? (hvalid.schema?_eq_some_iff.mpr ⟨declared, name_eq⟩), hcheck]
      rfl
    | @created s c declared name_eq accepted family_eq kind_eq values =>
      have hwf := hvalid.wellFormed s declared
      have hcheck : s.check config.entries = .ok () := hwf.check_eq_ok_iff.mpr accepted
      rw [create_of_schema? (hvalid.schema?_eq_some_iff.mpr ⟨declared, name_eq⟩), hcheck]
      have hattributes : Schema.fill config s.attributes = c.attributes := by
        refine Keyed.ext fun name => Option.ext fun value => ?_
        rw [Schema.get?_fill hwf.names_nodup]
        exact (values name value).symm
      obtain ⟨family, kind', attributes⟩ := c
      cases family_eq
      cases kind_eq
      cases hattributes
      rfl

/-- Of two values that no attribute takes and one of the wrong kind, the least name is
reported. -/
theorem create_eq_iff_graph :
    let r := (({ family := "executor" } : Registry).register
      { kind := "graph", attributes := [.withDefault "link-params" .bool false] }).registry
    let config := Keyed.ofList
      [("zeta", .int 1), ("link-params", .string "x"), ("alpha", .bool true)]
    r.Reachable ∧
      r.Creates "graph" config (.error (.schema "graph" (.unknownAttribute "alpha"))) := by
  intro r config
  have hreachable : r.Reachable := ⟨"executor", .register _ .refl⟩
  exact ⟨hreachable, (create_eq_iff hreachable "graph" config _).1.mp (by decide)⟩

end Registry

end ComponentKinds
