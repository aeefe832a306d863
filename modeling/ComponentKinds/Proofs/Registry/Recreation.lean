import ComponentKinds.Proofs.Registry.Creation

/-!
# Creating a component again from its own values

A schema accepts its own defaults, so the values of a component pass the check that the values
it was created from have passed. Filling in defaults adds what is left out and nothing else, so
a configuration that lies between the values supplied at first and those of the component makes
the same component.
-/

namespace ComponentKinds

/-- A configuration has all the values of another one, and perhaps further ones. -/
def Config.Sub (config more : Config) : Prop :=
  ∀ name value, config.get? name = some value → more.get? name = some value

namespace Schema

variable {s : Schema} {config more : Config}

/-- What is filled in leaves every supplied value. -/
theorem sub_fill {attributes : List Attribute} (hnodup : (attributes.map (·.name)).Nodup) :
    config.Sub (fill config attributes) :=
  fun name value hvalue => (get?_fill hnodup name value).mpr (Or.inl hvalue)

/-- The defaults of some of the attributes are among those of all. -/
theorem fill_sub_fill {explicit attributes : List Attribute} (hsub : explicit.Sublist attributes)
    (hnodup : (attributes.map (·.name)).Nodup) :
    (fill config explicit).Sub (fill config attributes) := by
  intro name value hvalue
  have hexplicit := hnodup.sublist (hsub.map (·.name))
  rw [get?_fill hnodup]
  rcases (get?_fill hexplicit name value).mp hvalue with hsupplied | ⟨hnone, a, ha, hdefault⟩
  · exact Or.inl hsupplied
  · exact Or.inr ⟨hnone, a, hsub.subset ha, hdefault⟩

/-- A schema does not reject the default of an attribute. -/
theorem WellFormed.accepts_default (h : s.WellFormed) {a : Attribute} (ha : a ∈ s.attributes)
    {value : Value} (hdefault : a.default? = some value) {e : Error} :
    ¬s.Rejection a.name value e := by
  intro he
  cases he with
  | unknown undeclared => exact undeclared a ha rfl
  | @mismatch b declared name_eq kind_ne =>
    rw [h.eq_of_name_eq declared ha name_eq] at kind_ne
    exact kind_ne (h.defaults_fit a ha value hdefault)

/-- Values that are accepted stay accepted when defaults are filled in. -/
theorem WellFormed.accepts_fill (h : s.WellFormed)
    (haccepted : ∀ name value e, (name, value) ∈ config.entries → ¬s.Rejection name value e)
    {name : String} {value : Value} (hvalue : (fill config s.attributes).get? name = some value)
    {e : Error} : ¬s.Rejection name value e := by
  rcases (get?_fill h.names_nodup name value).mp hvalue with hsupplied | ⟨_, a, ha, rfl, hdefault⟩
  · exact haccepted name value e (Keyed.mem_entries_iff.mpr hsupplied)
  · exact h.accepts_default ha hdefault

/-- Spelling out some of what would be filled in leaves the rest to be filled in. -/
theorem WellFormed.fill_eq_of_between (h : s.WellFormed) (hmore : config.Sub more)
    (hfill : more.Sub (fill config s.attributes)) :
    fill more s.attributes = fill config s.attributes := by
  refine Keyed.ext fun name => Option.ext fun value => ?_
  constructor
  · intro hvalue
    rcases (get?_fill h.names_nodup name value).mp hvalue with hspelled | ⟨hnone, hdefault⟩
    · exact hfill name value hspelled
    · have habsent : config.get? name = none := by
        rw [Option.eq_none_iff_forall_ne_some]
        intro supplied hsupplied
        rw [hmore name supplied hsupplied] at hnone
        cases hnone
      exact (get?_fill h.names_nodup name value).mpr (Or.inr ⟨habsent, hdefault⟩)
  · intro hvalue
    rw [get?_fill h.names_nodup]
    cases hspelled : more.get? name with
    | some other =>
      have hsame : some other = some value := (hfill name other hspelled).symm.trans hvalue
      exact Or.inl hsame
    | none =>
      rcases (get?_fill h.names_nodup name value).mp hvalue with hsupplied | ⟨_, hdefault⟩
      · rw [hmore name value hsupplied] at hspelled
        cases hspelled
      · exact Or.inr ⟨rfl, hdefault⟩

end Schema

namespace Registry

/-- A component is created again from every configuration that has the values supplied at first
and no other values than the component: from all values of the component, for one, or from the
supplied ones with any of the defaults. -/
theorem Reachable.create_again {r : Registry} (h : r.Reachable) {kind : String} {config : Config}
    {c : Component} (hc : r.create kind config = .ok c) :
    (∀ more : Config, config.Sub more → more.Sub c.attributes → r.create kind more = .ok c) ∧
      r.create kind c.attributes = .ok c ∧
      ∀ s, r.schema? kind = some s → ∀ explicit : List Attribute, explicit.Sublist s.attributes →
        r.create kind (Schema.fill config explicit) = .ok c := by
  cases hs : r.schema? kind with
  | none =>
    rw [create_of_schema?_eq_none hs] at hc
    cases hc
  | some s =>
    have hwell := h.valid.wellFormed_of_schema? hs
    obtain ⟨haccepted, rfl⟩ := (h.valid.create_eq_ok_iff hs).mp hc
    have hagain : ∀ more : Config, config.Sub more → more.Sub (Schema.fill config s.attributes) →
        r.create kind more =
          .ok { family := r.family, kind, attributes := Schema.fill config s.attributes } := by
      intro more hmore hfill
      refine (h.valid.create_eq_ok_iff hs).mpr ⟨fun name value e hmem => ?_, ?_⟩
      · exact hwell.accepts_fill haccepted (hfill name value (Keyed.mem_entries_iff.mp hmem))
      · rw [hwell.fill_eq_of_between hmore hfill]
    refine ⟨hagain, ?_, ?_⟩
    · exact hagain _ (Schema.sub_fill hwell.names_nodup) fun _ _ => id
    · rintro _ ⟨⟩ explicit hsub
      have hexplicit := hwell.names_nodup.sublist (hsub.map (·.name))
      exact hagain _ (Schema.sub_fill hexplicit) (Schema.fill_sub_fill hsub hwell.names_nodup)

/-- A component with one value supplied and two defaults, created again from all its values, and
with one of the defaults spelled out. -/
theorem Reachable.create_again_graph :
    let depth : Attribute := .withDefault "depth" .int 1
    let eager : Attribute := .withDefault "eager" .bool true
    let r := (({ family := "executor" } : Registry).register
      { kind := "graph", attributes := [depth, ⟨"name", .string, none⟩, eager] }).registry
    let config := Keyed.ofList [("name", .string "main")]
    let c : Component := ⟨"executor", "graph",
      Keyed.ofList [("depth", .int 1), ("name", .string "main"), ("eager", .bool true)]⟩
    r.Reachable ∧ r.create "graph" config = .ok c ∧ r.create "graph" c.attributes = .ok c ∧
      r.create "graph" (Schema.fill config [eager]) = .ok c := by
  intro depth eager r config c
  have hreachable : r.Reachable := ⟨"executor", .register _ .refl⟩
  have hc : r.create "graph" config = .ok c := by decide
  obtain ⟨-, hall, hsome⟩ := hreachable.create_again hc
  refine ⟨hreachable, hc, hall, hsome _ rfl [eager] ?_⟩
  decide

end Registry

end ComponentKinds
