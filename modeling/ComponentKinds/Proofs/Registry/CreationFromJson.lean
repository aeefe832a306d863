import ComponentKinds.Proofs.Config.Conversion
import ComponentKinds.Proofs.Registry.Creation

/-!
# What a creation from JSON comes to

The kind is looked up, the tree has to be an object, its members are converted, and only then
the values are checked against the schema. Each stage stops at its own first error. What comes
of all of them is stated here on the tree and the schema: an undeclared kind is reported
whatever the tree is, and a member that is no value at all before any that the schema rejects,
even where the latter has the smaller name.
-/

namespace ComponentKinds

/-- Components of one kind with the same values are equal. -/
theorem Component.ext_value? {c d : Component} (family_eq : c.family = d.family)
    (kind_eq : c.kind = d.kind) (values : ∀ name, c.value? name = d.value? name) : c = d := by
  obtain ⟨family, kind, attributes⟩ := c
  obtain ⟨family', kind', attributes'⟩ := d
  cases family_eq
  cases kind_eq
  cases Keyed.ext values
  rfl

namespace Schema

/-- A member that names an attribute and has the form of values of its kind. -/
def Takes (s : Schema) (member : String × Json) : Prop :=
  ∃ a ∈ s.attributes, a.name = member.1 ∧ ∃ v, member.2.DenotesValue v ∧ v.kind = a.kind

theorem Takes.exists_value {s : Schema} {member : String × Json} (h : s.Takes member) :
    ∃ v, member.2.DenotesValue v := by
  obtain ⟨_, _, _, v, hv, _⟩ := h
  exact ⟨v, hv⟩

/-- The error for a member whose value is rejected. -/
inductive MemberRejection (s : Schema) (name : String) (tree : Json) (e : Error) : Prop
  | value {v : Value} (denotes : tree.DenotesValue v) (rejection : s.Rejection name v e)

/-- A value is accepted exactly if it is of the kind of the attribute with its name. -/
theorem WellFormed.not_rejection_iff {s : Schema} (h : s.WellFormed) {name : String} {v : Value} :
    (∀ e, ¬s.Rejection name v e) ↔ ∃ a ∈ s.attributes, a.name = name ∧ v.kind = a.kind := by
  constructor
  · intro haccepted
    cases hfind : s.attribute? name with
    | none => exact absurd (.unknown (attribute?_eq_none_iff.mp hfind)) (haccepted _)
    | some a =>
      obtain ⟨declared, name_eq⟩ := h.attribute?_eq_some_iff.mp hfind
      refine ⟨a, declared, name_eq, ?_⟩
      by_contra hkind
      exact haccepted _ (.mismatch declared name_eq hkind)
  · rintro ⟨a, declared, name_eq, hkind⟩ e he
    cases he with
    | unknown undeclared => exact undeclared a declared name_eq
    | mismatch declared' name_eq' kind_ne =>
      cases h.eq_of_name_eq declared declared' (name_eq.trans name_eq'.symm)
      exact kind_ne hkind

section Members

variable {s : Schema} {members : List (String × Json)} {entries : List (String × Value)}

/-- The first rejection of values is that of the members which denote them. -/
theorem firstRejection_iff_of_denoted (h : Config.Denoted members entries) {e : Error} :
    s.FirstRejection entries e ↔ Entries.Least s.MemberRejection members e := by
  refine Entries.least_congr fun name e => ?_
  simp only [h.mem_iff]
  constructor
  · rintro ⟨v, ⟨tree, hmem, hv⟩, he⟩
    exact ⟨tree, hmem, .value hv he⟩
  · rintro ⟨tree, hmem, @⟨v, hv, he⟩⟩
    exact ⟨v, ⟨tree, hmem, hv⟩, he⟩

/-- Values are accepted exactly if the schema takes the members which denote them. -/
theorem WellFormed.accepted_iff_of_denoted (hwf : s.WellFormed)
    (h : Config.Denoted members entries) :
    (∀ name value e, (name, value) ∈ entries → ¬s.Rejection name value e) ↔
      ∀ member ∈ members, s.Takes member := by
  constructor
  · rintro haccepted ⟨name, tree⟩ hmem
    obtain ⟨v, hv⟩ := Config.exists_denoted_iff.mp ⟨entries, h⟩ _ hmem
    have hentry := h.mem_iff.mpr ⟨tree, hmem, hv⟩
    obtain ⟨a, ha, hname, hkind⟩ := hwf.not_rejection_iff.mp fun e => haccepted name v e hentry
    exact ⟨a, ha, hname, v, hv, hkind⟩
  · intro htakes name value e hentry
    obtain ⟨tree, hmem, hv⟩ := h.mem_iff.mp hentry
    obtain ⟨a, ha, hname, w, hw, hkind⟩ := htakes _ hmem
    cases hv.unique hw
    exact hwf.not_rejection_iff.mpr ⟨a, ha, hname, hkind⟩ e

end Members

end Schema

namespace Registry

/-- What the creation of a component from a tree comes to, stage after stage. -/
inductive CreatesFromJson (r : Registry) (kind : String) (j : Json) :
    Except Error Component → Prop
  | unknownKind (undeclared : ∀ s ∈ r.schemas, s.name ≠ kind) :
      CreatesFromJson r kind j (.error (.unknownKind r.family kind))
  | notObject {s : Schema} (declared : s ∈ r.schemas) (name_eq : s.name = kind)
      (other : ∀ members, j ≠ .obj members) :
      CreatesFromJson r kind j (.error (.invalidConfig (.config (.notObject j))))
  | noValue {s : Schema} {members : List (String × Json)} {fault : Config.Fault}
      (declared : s ∈ r.schemas) (name_eq : s.name = kind) (object : j = .obj members)
      (first : Entries.Least Config.MemberFault members fault) :
      CreatesFromJson r kind j (.error (.invalidConfig (.config fault)))
  | rejected {s : Schema} {members : List (String × Json)} {e : Error}
      (declared : s ∈ r.schemas) (name_eq : s.name = kind) (object : j = .obj members)
      (values : ∀ member ∈ members, ∃ v, member.2.DenotesValue v)
      (first : Entries.Least s.MemberRejection members e) : CreatesFromJson r kind j (.error e)
  | created {s : Schema} {members : List (String × Json)} {c : Component}
      (declared : s ∈ r.schemas) (name_eq : s.name = kind) (object : j = .obj members)
      (taken : ∀ member ∈ members, s.Takes member)
      (family_eq : c.family = r.family) (kind_eq : c.kind = kind)
      (values : ∀ name v, c.value? name = some v ↔
        (∃ tree, (name, tree) ∈ members ∧ tree.DenotesValue v) ∨
          (∀ tree, (name, tree) ∉ members) ∧
            ∃ a ∈ s.attributes, a.name = name ∧ a.default? = some v) :
      CreatesFromJson r kind j (.ok c)

variable {r : Registry} {kind : String} {j : Json}

/-- A creation of an undeclared kind does not look at the tree. -/
theorem createFromJson_of_schema?_eq_none (hs : r.schema? kind = none) (j : Json) :
    r.createFromJson kind j = .error (.unknownKind r.family kind) := by
  simp only [createFromJson, lookup, hs]
  rfl

/-- A tree that is no configuration is reported before it is checked. -/
theorem createFromJson_of_fault {s : Schema} (hs : r.schema? kind = some s)
    {fault : Config.Fault} (hj : Config.ofJson j = .error fault) :
    r.createFromJson kind j = .error (.invalidConfig (.config fault)) := by
  simp only [createFromJson, lookup, hs, hj]
  rfl

/-- A tree that is a configuration is used as that. -/
theorem createFromJson_of_config {s : Schema} (hs : r.schema? kind = some s) {config : Config}
    (hj : Config.ofJson j = .ok config) : r.createFromJson kind j = r.create kind config := by
  simp only [createFromJson, lookup, hs, hj]
  rfl

/-- The values of a component that is created from members are those that the members denote,
and the defaults of the attributes that are left out. -/
theorem get?_fill_of_denoted {s : Schema} (hwf : s.WellFormed) {members : List (String × Json)}
    {config : Config} (h : Config.Denoted members config.entries) (name : String) (v : Value) :
    (Schema.fill config s.attributes).get? name = some v ↔
      (∃ tree, (name, tree) ∈ members ∧ tree.DenotesValue v) ∨
        (∀ tree, (name, tree) ∉ members) ∧
          ∃ a ∈ s.attributes, a.name = name ∧ a.default? = some v := by
  rw [Schema.get?_fill hwf.names_nodup, ← Keyed.mem_entries_iff, h.mem_iff, h.get?_eq_none_iff]

/-- An object of values is used as the configuration of these. -/
theorem exists_config_of_values {s : Schema} (hs : r.schema? kind = some s)
    {members : List (String × Json)} (hj : (Json.obj members).Canonical)
    (values : ∀ member ∈ members, ∃ v, member.2.DenotesValue v) :
    ∃ config, Config.Denoted members config.entries ∧
      r.createFromJson kind (.obj members) = r.create kind config := by
  obtain ⟨config, hconfig⟩ := (Config.exists_ofJson_eq_ok_iff hj).mpr values
  obtain ⟨_, ⟨⟩, hdenoted⟩ := (Config.ofJson_eq_ok_iff hj).mp hconfig
  exact ⟨config, hdenoted, createFromJson_of_config hs hconfig⟩

/-- Every creation comes to one of the results described. -/
theorem Valid.createsFromJson (h : r.Valid) (kind : String) (hj : j.Canonical) :
    r.CreatesFromJson kind j (r.createFromJson kind j) := by
  cases hs : r.schema? kind with
  | none =>
    rw [createFromJson_of_schema?_eq_none hs]
    exact .unknownKind (h.schema?_eq_none_iff.mp hs)
  | some s =>
    obtain ⟨declared, name_eq⟩ := h.schema?_eq_some_iff.mp hs
    have hwf := h.wellFormed_of_schema? hs
    cases hconfig : Config.ofJson j with
    | error fault =>
      rw [createFromJson_of_fault hs hconfig]
      rcases (Config.ofJson_eq_error_iff hj).mp hconfig with ⟨other, rfl⟩ | ⟨members, hobj, first⟩
      · exact .notObject declared name_eq other
      · exact .noValue declared name_eq hobj first
    | ok config =>
      obtain ⟨members, hobj, hdenoted⟩ := (Config.ofJson_eq_ok_iff hj).mp hconfig
      rw [createFromJson_of_config hs hconfig]
      cases hcreate : r.create kind config with
      | error e =>
        have values := Config.exists_denoted_iff.mp ⟨_, hdenoted⟩
        have first := (h.create_eq_error_iff hs).mp hcreate
        rw [Schema.firstRejection_iff_of_denoted hdenoted] at first
        exact .rejected declared name_eq hobj values first
      | ok c =>
        obtain ⟨accepted, rfl⟩ := (h.create_eq_ok_iff hs).mp hcreate
        have taken := (hwf.accepted_iff_of_denoted hdenoted).mp accepted
        exact .created declared name_eq hobj taken rfl rfl (get?_fill_of_denoted hwf hdenoted)

/-- What is described as a result of a creation is what it comes to. Where it is about values, every
member denotes one, so that there is a configuration to check. -/
theorem CreatesFromJson.eq {result : Except Error Component}
    (hresult : r.CreatesFromJson kind j result) (h : r.Valid) (hj : j.Canonical) :
    r.createFromJson kind j = result := by
  cases hresult with
  | unknownKind undeclared =>
    exact createFromJson_of_schema?_eq_none (h.schema?_eq_none_iff.mpr undeclared) j
  | notObject declared name_eq other =>
    have hs := h.schema?_eq_some_iff.mpr ⟨declared, name_eq⟩
    exact createFromJson_of_fault hs ((Config.ofJson_eq_error_iff hj).mpr (Or.inl ⟨other, rfl⟩))
  | noValue declared name_eq object first =>
    have hs := h.schema?_eq_some_iff.mpr ⟨declared, name_eq⟩
    exact createFromJson_of_fault hs
      ((Config.ofJson_eq_error_iff hj).mpr (Or.inr ⟨_, object, first⟩))
  | rejected declared name_eq object values first =>
    subst object
    have hs := h.schema?_eq_some_iff.mpr ⟨declared, name_eq⟩
    obtain ⟨config, hdenoted, heq⟩ := exists_config_of_values hs hj values
    rw [heq, h.create_eq_error_iff hs]
    exact (Schema.firstRejection_iff_of_denoted hdenoted).mpr first
  | @created s members c declared name_eq object taken family_eq kind_eq values =>
    subst object
    have hs := h.schema?_eq_some_iff.mpr ⟨declared, name_eq⟩
    have hwf := h.wellFormed_of_schema? hs
    obtain ⟨config, hdenoted, heq⟩ :=
      exists_config_of_values hs hj fun member hmem => (taken member hmem).exists_value
    rw [heq, h.create_eq_ok_iff hs]
    refine ⟨(hwf.accepted_iff_of_denoted hdenoted).mpr taken, ?_⟩
    refine Component.ext_value? family_eq.symm kind_eq.symm fun name => Option.ext fun v => ?_
    exact (get?_fill_of_denoted hwf hdenoted name v).trans (values name v).symm

/-- A creation from JSON comes to exactly one result. It succeeds exactly if the kind is
declared, the tree is an object and the schema takes all members; a member that is no value is
named, and so is the first item of an array that is not a string. -/
theorem createFromJson_eq_iff (h : r.Reachable) (kind : String) (hj : j.Canonical)
    (result : Except Error Component) :
    (r.createFromJson kind j = result ↔ r.CreatesFromJson kind j result) ∧
      ((∃ c, r.createFromJson kind j = .ok c) ↔ ∃ s ∈ r.schemas, s.name = kind ∧
        ∃ members, j = .obj members ∧ ∀ member ∈ members, s.Takes member) ∧
      (∀ name fault, (Config.Fault.member name fault).message =
        "attribute " ++ name ++ ": " ++ fault.message) ∧
      ∀ item, (Value.Fault.item item).message =
        "array element " ++ item.render ++ " is not a string" := by
  have hvalid := h.valid
  refine ⟨⟨?_, fun hresult => hresult.eq hvalid hj⟩, ⟨?_, ?_⟩, fun _ _ => rfl, fun _ => rfl⟩
  · rintro rfl
    exact hvalid.createsFromJson kind hj
  · rintro ⟨c, hc⟩
    have hcreates := hvalid.createsFromJson kind hj
    rw [hc] at hcreates
    cases hcreates with
    | created declared name_eq object taken => exact ⟨_, declared, name_eq, _, object, taken⟩
  · rintro ⟨s, declared, name_eq, members, rfl, taken⟩
    have hs := hvalid.schema?_eq_some_iff.mpr ⟨declared, name_eq⟩
    obtain ⟨config, hdenoted, heq⟩ :=
      exists_config_of_values hs hj fun member hmem => (taken member hmem).exists_value
    have accepted := ((hvalid.wellFormed_of_schema? hs).accepted_iff_of_denoted hdenoted).mpr taken
    exact ⟨_, heq.trans ((hvalid.create_eq_ok_iff hs).mpr ⟨accepted, rfl⟩)⟩

/-- A name that is not declared and a value of the wrong kind come before the array with an
item that is not a string, but the array is reported. -/
theorem createFromJson_eq_iff_item :
    let r := (({ family := "executor" } : Registry).register
      ⟨"graph", [⟨"links", .strings, none⟩, ⟨"depth", .int, none⟩]⟩).registry
    let item := Json.num (.int 1)
    let j := Json.obj [("alpha", .bool true), ("depth", .str "x"),
      ("links", .arr [.str "a", item, .null]), ("zeta", .null)]
    r.Reachable ∧ j.Canonical ∧ r.CreatesFromJson "graph" j
      (.error (.invalidConfig (.config (.member "links" (.item item))))) := by
  intro r item j
  have hreachable : r.Reachable := ⟨"executor", .register _ .refl⟩
  have hcanonical : j.Canonical := by decide
  refine ⟨hreachable, hcanonical, ?_⟩
  exact (createFromJson_eq_iff hreachable "graph" hcanonical _).1.mp (by decide)

end Registry

end ComponentKinds
