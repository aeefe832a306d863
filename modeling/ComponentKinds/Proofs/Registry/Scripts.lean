import ComponentKinds.Proofs.Registry.Blocks
import ComponentKinds.Proofs.Registry.Lookups

/-!
# What a script leaves behind

A script that succeeds appends: its new kinds behind those that there are, and its attributes
behind those that their kinds have. It succeeds exactly if every default fits and every name is
new, to the registry and within the script. One that fails leaves what the part of it before the
first offending attribute would have left, with the error of that attribute. So no script that
adds anything can be run twice.
-/

namespace ComponentKinds

namespace Block

/-- The attributes that blocks add, each with its kind, in the order of the script. -/
def attempts (blocks : List Block) : List (String × Attribute) :=
  blocks.flatMap fun block => block.attributes.map (block.kind, ·)

/-- The attributes that blocks add to one kind, in the order of the script. -/
def triedOn (kind : String) (blocks : List Block) : List Attribute :=
  (blocks.filter fun block => block.kind = kind).flatMap (·.attributes)

theorem triedOn_append (kind : String) (blocks more : List Block) :
    triedOn kind (blocks ++ more) = triedOn kind blocks ++ triedOn kind more := by
  simp [triedOn]

theorem triedOn_singleton (kind : String) (block : Block) :
    triedOn kind [block] = if block.kind = kind then block.attributes else [] := by
  by_cases h : block.kind = kind <;> simp [triedOn, h]

/-- What is added to one kind is what is added with that kind. -/
theorem triedOn_eq (kind : String) (blocks : List Block) :
    triedOn kind blocks = ((attempts blocks).filter fun added => added.1 = kind).map (·.2) := by
  induction blocks with
  | nil => rfl
  | cons block rest ih =>
    have hfront := triedOn_append kind [block] rest
    have hattempts : attempts (block :: rest) =
        block.attributes.map (block.kind, ·) ++ attempts rest := List.flatMap_cons
    rw [List.singleton_append, triedOn_singleton, ih] at hfront
    rw [hfront, hattempts, List.filter_append, List.map_append]
    by_cases h : block.kind = kind <;> simp [h, List.filter_map, Function.comp_def]

theorem mem_triedOn_iff {kind : String} {a : Attribute} {blocks : List Block} :
    a ∈ triedOn kind blocks ↔ (kind, a) ∈ attempts blocks := by
  rw [triedOn_eq]
  simp

/-- Nothing is added to a kind that no block declares. -/
theorem triedOn_eq_nil {kind : String} {blocks : List Block} (h : kind ∉ blocks.map (·.kind)) :
    triedOn kind blocks = [] := by
  have hnone : blocks.filter (fun block => block.kind = kind) = [] := by
    rw [List.filter_eq_nil_iff]
    intro block hblock
    simpa using fun heq : block.kind = kind => h (heq ▸ List.mem_map_of_mem hblock)
  rw [triedOn, hnone, List.flatMap_nil]

/-- No name is added twice to a kind exactly if none is added twice to any one kind. -/
theorem nodup_attempts_iff {blocks : List Block} :
    ((attempts blocks).map fun added => (added.1, added.2.name)).Nodup ↔
      ∀ kind, ((triedOn kind blocks).map (·.name)).Nodup := by
  simp only [triedOn_eq, List.Nodup, List.pairwise_map, List.pairwise_filter, decide_eq_true_eq,
    ne_eq, Prod.mk.injEq, not_and]
  simp only [List.pairwise_iff_getElem]
  constructor
  · intro h kind i j hi hj hlt hfirst hsecond
    exact h i j hi hj hlt (hfirst.trans hsecond.symm)
  · intro h i j hi hj hlt heq
    exact h _ i j hi hj hlt heq rfl

end Block

namespace Registry

/-- One more kind is new unless it is an old one or was mentioned before. -/
private theorem eraseDups_filter_snoc (old mentioned : List String) (kind : String) :
    ((mentioned ++ [kind]).filter (· ∉ old)).eraseDups =
      (mentioned.filter (· ∉ old)).eraseDups ++
        if kind ∈ old ∨ kind ∈ mentioned then [] else [kind] := by
  rw [List.filter_append, List.eraseDups_append]
  by_cases hold : kind ∈ old
  · simp [hold]
  · by_cases hmentioned : kind ∈ mentioned <;>
      simp [hold, hmentioned, List.removeAll, List.eraseDups_cons]

/-- The attributes that a kind has; a kind that is not declared has none. -/
def attributesOf (r : Registry) (kind : String) : List Attribute :=
  ((r.schema? kind).map (·.attributes)).getD []

/-- The schema of a kind with all attributes behind it that blocks add to the kind. -/
def schemaAfter (r : Registry) (blocks : List Block) (kind : String) : Schema :=
  ⟨kind, r.attributesOf kind ++ Block.triedOn kind blocks⟩

/-- A registry is another one with all of some blocks appended. -/
structure Appends (r : Registry) (blocks : List Block) (s : Registry) : Prop where
  /-- Positions and schemas are in step. -/
  valid : s.Valid
  /-- The family stays. -/
  family_eq : s.family = r.family
  /-- The new kinds are listed behind those from before, by their first mention. -/
  kinds_eq : s.kinds = r.kinds ++ ((blocks.map (·.kind)).filter (· ∉ r.kinds)).eraseDups
  /-- The attributes of a kind stand behind those from before, in the order of the blocks. -/
  schema?_eq : ∀ kind ∈ s.kinds, s.schema? kind = some (r.schemaAfter blocks kind)

/-- Blocks may be appended: they make a well-formed schema of every kind. -/
def Accepts (r : Registry) (blocks : List Block) : Prop :=
  ∀ kind, (r.schemaAfter blocks kind).WellFormed

variable {r s t : Registry} {blocks more : List Block} {block : Block}

/-- What stands at a position is the schema of the kind that is listed there. -/
theorem Valid.getElem?_schemas (h : r.Valid) (slot : Nat) :
    r.schemas[slot]? = r.kinds[slot]?.bind r.schema? := by
  rw [kinds, List.getElem?_map, Array.getElem?_toList]
  cases hschema : r.schemas[slot]? with
  | none => rfl
  | some schema =>
    exact (h.schema?_eq_some_iff.mpr ⟨Array.mem_of_getElem? hschema, rfl⟩).symm

/-- A registry is determined by its family, the list of its kinds and their schemas. -/
theorem Valid.eq_of_schema?_eq (hs : s.Valid) (ht : t.Valid) (hfamily : s.family = t.family)
    (hkinds : s.kinds = t.kinds) (hschemas : ∀ kind ∈ s.kinds, s.schema? kind = t.schema? kind) :
    s = t := by
  have hslots : s.slots = t.slots := by
    refine Keyed.ext fun kind => Option.ext fun slot => ?_
    rw [hs.slot_iff_kinds, ht.slot_iff_kinds, hkinds]
  have hlisted : s.schemas = t.schemas := by
    refine Array.ext_getElem? fun slot => ?_
    rw [hs.getElem?_schemas, ht.getElem?_schemas, hkinds]
    cases hkind : t.kinds[slot]? with
    | none => rfl
    | some kind => exact hschemas kind (hkinds ▸ List.mem_of_getElem? hkind)
  obtain ⟨family, schemas, slots⟩ := s
  obtain ⟨family', schemas', slots'⟩ := t
  cases hfamily
  cases hlisted
  cases hslots
  rfl

theorem attributesOf_of_schema? {kind : String} {schema : Schema}
    (h : r.schema? kind = some schema) : r.attributesOf kind = schema.attributes := by
  rw [attributesOf, h, Option.map_some, Option.getD_some]

theorem attributesOf_of_schema?_eq_none {kind : String} (h : r.schema? kind = none) :
    r.attributesOf kind = [] := by
  rw [attributesOf, h, Option.map_none, Option.getD_none]

/-- The attributes of a kind make a well-formed schema. -/
theorem Valid.wellFormed_attributesOf (h : r.Valid) (kind : String) :
    Schema.WellFormed ⟨kind, r.attributesOf kind⟩ := by
  cases hs : r.schema? kind with
  | none =>
    rw [attributesOf_of_schema?_eq_none hs]
    exact Schema.wellFormed_nil kind
  | some schema =>
    have hwell := h.wellFormed_of_schema? hs
    rw [attributesOf_of_schema? hs]
    exact ⟨hwell.names_nodup, hwell.defaults_fit⟩

/-- Blocks may be appended exactly if all defaults fit, no name is added to a kind twice, and
none that the kind has already. -/
theorem Valid.accepts_iff (h : r.Valid) :
    r.Accepts blocks ↔
      (∀ kind a, (kind, a) ∈ Block.attempts blocks → a.DefaultFits) ∧
      ((Block.attempts blocks).map fun added => (added.1, added.2.name)).Nodup ∧
      ∀ kind a, (kind, a) ∈ Block.attempts blocks → ∀ b ∈ r.attributesOf kind, b.name ≠ a.name := by
  simp only [← Block.mem_triedOn_iff, Block.nodup_attempts_iff]
  constructor
  · intro haccepts
    refine ⟨fun kind a ha => ?_, fun kind => ?_, fun kind a ha b hb => ?_⟩
    · exact (haccepts kind).defaults_fit a (List.mem_append_right _ ha)
    · have hnodup := (haccepts kind).names_nodup
      rw [schemaAfter, List.map_append] at hnodup
      exact (List.nodup_append.mp hnodup).2.1
    · have hnodup := (haccepts kind).names_nodup
      rw [schemaAfter, List.map_append] at hnodup
      exact (List.nodup_append.mp hnodup).2.2 _ (List.mem_map_of_mem hb) _ (List.mem_map_of_mem ha)
  · intro hconditions kind
    obtain ⟨hfit, hnodup, hnew⟩ := hconditions
    have hold := h.wellFormed_attributesOf kind
    refine ⟨?_, fun a ha => ?_⟩
    · rw [schemaAfter, List.map_append, List.nodup_append]
      refine ⟨hold.names_nodup, hnodup kind, ?_⟩
      simp only [List.forall_mem_map]
      exact fun b hb a ha => hnew kind a ha b hb
    · rcases List.mem_append.mp ha with ha | ha
      · exact hold.defaults_fit a ha
      · exact hfit kind a ha

/-- The front of blocks that may be appended may be appended by itself. -/
theorem Accepts.of_append (h : r.Accepts (blocks ++ more)) : r.Accepts blocks := by
  intro kind
  have hall := h kind
  rw [schemaAfter, Block.triedOn_append, ← List.append_assoc] at hall
  exact Schema.WellFormed.of_append hall

/-- No blocks append nothing. -/
theorem Valid.appends_nil (h : r.Valid) : r.Accepts [] ∧ r.Appends [] r := by
  have hafter : ∀ kind, r.schemaAfter [] kind = ⟨kind, r.attributesOf kind⟩ := by
    intro kind
    rw [schemaAfter, Block.triedOn, List.filter_nil, List.flatMap_nil, List.append_nil]
  refine ⟨fun kind => ?_, h, rfl, ?_, fun kind hkind => ?_⟩
  · rw [hafter]
    exact h.wellFormed_attributesOf kind
  · rw [List.map_nil, List.filter_nil, List.eraseDups_nil, List.append_nil]
  · obtain ⟨schema, hs⟩ := h.mem_kinds_iff.mp hkind
    obtain ⟨_, rfl⟩ := h.schema?_eq_some_iff.mp hs
    rw [hafter, attributesOf_of_schema? hs, hs]

namespace Appends

/-- There is one registry with the blocks appended at most. -/
theorem unique (hs : r.Appends blocks s) (ht : r.Appends blocks t) : s = t := by
  have hkinds : s.kinds = t.kinds := hs.kinds_eq.trans ht.kinds_eq.symm
  refine hs.valid.eq_of_schema?_eq ht.valid (hs.family_eq.trans ht.family_eq.symm) hkinds ?_
  intro kind hkind
  rw [hs.schema?_eq kind hkind, ht.schema?_eq kind (hkinds ▸ hkind)]

/-- The kinds are those from before and those of the blocks. -/
theorem mem_kinds_iff (h : r.Appends blocks s) {kind : String} :
    kind ∈ s.kinds ↔ kind ∈ r.kinds ∨ kind ∈ blocks.map (·.kind) := by
  rw [h.kinds_eq, List.mem_append, List.mem_eraseDups, List.mem_filter, decide_eq_true_eq]
  by_cases hkind : kind ∈ r.kinds <;> simp [hkind]

/-- The schema of a kind, or the empty one of a kind that is not declared, has the attributes
that were appended. -/
theorem getD_schema?_eq (hr : r.Valid) (h : r.Appends blocks s) (kind : String) :
    (s.schema? kind).getD { name := kind } = r.schemaAfter blocks kind := by
  by_cases hkind : kind ∈ s.kinds
  · rw [h.schema?_eq kind hkind, Option.getD_some]
  · have hnot : ¬(kind ∈ r.kinds ∨ kind ∈ blocks.map (·.kind)) := mt h.mem_kinds_iff.mpr hkind
    rw [not_or] at hnot
    have hold := attributesOf_of_schema?_eq_none (hr.schema?_eq_none_iff_not_mem.mpr hnot.1)
    rw [h.valid.schema?_eq_none_iff_not_mem.mpr hkind, Option.getD_none, schemaAfter, hold,
      Block.triedOn_eq_nil hnot.2, List.append_nil]

end Appends

/-- One more block changes the schema of its kind only. -/
theorem schemaAfter_snoc (kind : String) :
    r.schemaAfter (blocks ++ [block]) kind =
      if kind = block.kind then
        { r.schemaAfter blocks kind with
          attributes := (r.schemaAfter blocks kind).attributes ++ block.attributes }
      else r.schemaAfter blocks kind := by
  rw [schemaAfter, Block.triedOn_append, Block.triedOn_singleton]
  by_cases hkind : kind = block.kind
  · rw [if_pos hkind, if_pos hkind.symm, schemaAfter, List.append_assoc]
  · rw [if_neg hkind, if_neg (Ne.symm hkind), List.append_nil, schemaAfter]

/-- After some blocks, one more succeeds exactly if it may be appended to them. -/
theorem Appends.error?_register_iff (hr : r.Valid) (h : r.Appends blocks s)
    (haccepts : r.Accepts blocks) :
    (s.register block).error? = none ↔ r.Accepts (blocks ++ [block]) := by
  have hsets := h.valid.sets_register block
  rw [h.getD_schema?_eq hr] at hsets
  rw [hsets.error?_eq, (haccepts block.kind).addWhile_eq_none_iff]
  constructor
  · intro hwell kind
    rw [schemaAfter_snoc]
    by_cases hkind : kind = block.kind
    · rw [if_pos hkind, hkind]
      exact hwell
    · rw [if_neg hkind]
      exact haccepts kind
  · intro hall
    have hwell := hall block.kind
    rw [schemaAfter_snoc, if_pos rfl] at hwell
    exact hwell

/-- A block that succeeds is appended. -/
theorem Appends.register (hr : r.Valid) (h : r.Appends blocks s) (haccepts : r.Accepts blocks)
    (hnone : (s.register block).error? = none) :
    r.Appends (blocks ++ [block]) (s.register block).registry := by
  have hsets := h.valid.sets_register block
  rw [h.getD_schema?_eq hr] at hsets
  have hadded := (haccepts block.kind).addWhile_eq_of_none (hsets.error?_eq.symm.trans hnone)
  refine ⟨hsets.valid, hsets.family_eq.trans h.family_eq, ?_, fun kind hkind => ?_⟩
  · rw [hsets.kinds_eq, List.map_append, List.map_singleton, eraseDups_filter_snoc,
      ← List.append_assoc, ← h.kinds_eq]
    by_cases hold : block.kind ∈ s.kinds
    · rw [if_pos hold, if_pos (h.mem_kinds_iff.mp hold), List.append_nil]
    · rw [if_neg hold, if_neg (mt h.mem_kinds_iff.mpr hold)]
  · rw [hsets.schema?_eq, schemaAfter_snoc, hadded]
    by_cases hself : kind = block.kind
    · rw [if_pos hself, if_pos hself, hself]
    · rw [if_neg hself, if_neg hself]
      rw [hsets.kinds_eq] at hkind
      apply h.schema?_eq
      by_cases hold : block.kind ∈ s.kinds
      · rwa [if_pos hold] at hkind
      · rw [if_neg hold, List.mem_append, List.mem_singleton] at hkind
        exact hkind.resolve_right hself

/-- After some blocks, a script succeeds exactly if it may be appended to them, and is appended
then. -/
theorem Appends.registerAll (hr : r.Valid) (h : r.Appends blocks s) (haccepts : r.Accepts blocks)
    (script : List Block) :
    ((s.registerAll script).error? = none ↔ r.Accepts (blocks ++ script)) ∧
      ((s.registerAll script).error? = none →
        r.Appends (blocks ++ script) (s.registerAll script).registry) := by
  induction script generalizing blocks s with
  | nil =>
    rw [List.append_nil]
    exact ⟨iff_of_true rfl haccepts, fun _ => h⟩
  | cons block rest ih =>
    have hblock : (s.register block).error? = none ↔ _ := h.error?_register_iff hr haccepts
    rw [Registry.registerAll, List.append_cons]
    cases herror : (s.register block).error? with
    | none => exact ih (h.register hr haccepts herror) (hblock.mp herror)
    | some e =>
      have hrefused : ¬r.Accepts (blocks ++ [block]) := by
        rw [← hblock, herror]
        exact Option.some_ne_none e
      refine ⟨iff_of_false ?_ fun hall => hrefused hall.of_append, fun hnone => ?_⟩
      · rw [herror]
        exact Option.some_ne_none e
      · rw [herror] at hnone
        cases hnone

/-- The first of several attributes is added, or else ends the addition. -/
theorem addAttributes_cons_eq_iff {kind : String} {first : Attribute} {rest : List Attribute}
    {o : Outcome} : r.addAttributes kind (first :: rest) = o ↔
      (∃ u, r.addAttribute kind first = .ok u ∧ u.addAttributes kind rest = o) ∨
        ∃ e, r.addAttribute kind first = .error e ∧ ⟨r, some e⟩ = o := by
  rw [addAttributes]
  cases r.addAttribute kind first <;> simp

/-- The first block of a script succeeds and is followed by the others, or else ends the script. -/
theorem registerAll_cons_eq_iff {first : Block} {rest : List Block} {o : Outcome} :
    r.registerAll (first :: rest) = o ↔
      (∃ u, r.register first = ⟨u, none⟩ ∧ u.registerAll rest = o) ∨
        ∃ u e, r.register first = ⟨u, some e⟩ ∧ ⟨u, some e⟩ = o := by
  rw [registerAll]
  obtain ⟨u, error?⟩ := r.register first
  cases error? <;> simp

/-- Attributes end with an error exactly if one of them is refused after those before it have been
added. -/
theorem addAttributes_eq_error_iff {kind : String} {attributes : List Attribute} {e : Error} :
    r.addAttributes kind attributes = ⟨s, some e⟩ ↔ ∃ before a after,
      attributes = before ++ a :: after ∧ r.addAttributes kind before = ⟨s, none⟩ ∧
      s.addAttribute kind a = .error e := by
  induction attributes generalizing r with
  | nil => simp [addAttributes]
  | cons first rest ih =>
    rw [addAttributes_cons_eq_iff]
    constructor
    · rintro (⟨u, hfirst, hrest⟩ | ⟨_, hrefused, ⟨⟩⟩)
      · obtain ⟨before, a, after, rfl, hbefore, hrefused⟩ := ih.mp hrest
        exact ⟨first :: before, a, after, rfl,
          addAttributes_cons_eq_iff.mpr (Or.inl ⟨u, hfirst, hbefore⟩), hrefused⟩
      · exact ⟨[], first, rest, rfl, rfl, hrefused⟩
    · rintro ⟨before, a, after, hsplit, hbefore, hrefused⟩
      cases before with
      | nil =>
        cases hsplit
        cases hbefore
        exact Or.inr ⟨e, hrefused, rfl⟩
      | cons _ before =>
        cases hsplit
        rcases addAttributes_cons_eq_iff.mp hbefore with ⟨u, hfirst, hbefore⟩ | ⟨_, _, ⟨⟩⟩
        exact Or.inl ⟨u, hfirst, ih.mpr ⟨before, a, after, rfl, hbefore, hrefused⟩⟩

/-- A script ends with an error exactly if one of its attributes is refused after the part of the
script before it has succeeded; what that part leaves stays. -/
theorem registerAll_eq_error_iff {script : List Block} {e : Error} :
    r.registerAll script = ⟨s, some e⟩ ↔ ∃ front kind before a after rest,
      script = front ++ ⟨kind, before ++ a :: after⟩ :: rest ∧
      r.registerAll (front ++ [⟨kind, before⟩]) = ⟨s, none⟩ ∧ s.addAttribute kind a = .error e := by
  induction script generalizing r with
  | nil => simp [registerAll]
  | cons first later ih =>
    rw [registerAll_cons_eq_iff]
    constructor
    · rintro (⟨u, hfirst, hlater⟩ | ⟨_, _, hfirst, ⟨⟩⟩)
      · obtain ⟨front, kind, before, a, after, rest, rfl, hfront, hrefused⟩ := ih.mp hlater
        exact ⟨first :: front, kind, before, a, after, rest, rfl,
          registerAll_cons_eq_iff.mpr (Or.inl ⟨u, hfirst, hfront⟩), hrefused⟩
      · obtain ⟨before, a, after, hsplit, hbefore, hrefused⟩ := addAttributes_eq_error_iff.mp hfirst
        obtain ⟨kind, attributes⟩ := first
        cases hsplit
        exact ⟨[], kind, before, a, after, later, rfl,
          registerAll_cons_eq_iff.mpr (Or.inl ⟨s, hbefore, rfl⟩), hrefused⟩
    · rintro ⟨front, kind, before, a, after, rest, hsplit, hfront, hrefused⟩
      cases front with
      | nil =>
        cases hsplit
        rcases registerAll_cons_eq_iff.mp hfront with ⟨_, hbefore, ⟨⟩⟩ | ⟨_, _, _, ⟨⟩⟩
        have hfirst := addAttributes_eq_error_iff.mpr ⟨before, a, after, rfl, hbefore, hrefused⟩
        exact Or.inr ⟨s, e, hfirst, rfl⟩
      | cons _ front =>
        cases hsplit
        rcases registerAll_cons_eq_iff.mp hfront with ⟨u, hfirst, hfront⟩ | ⟨_, _, _, ⟨⟩⟩
        have hlater := ih.mpr ⟨front, kind, before, a, after, rest, rfl, hfront, hrefused⟩
        exact Or.inl ⟨u, hfirst, hlater⟩

end Registry

/-- The first attribute of a script stands behind blocks without attributes. -/
theorem Block.attempts_eq_cons {kind : String} {a : Attribute} {later : List (String × Attribute)}
    {script : List Block} (h : attempts script = (kind, a) :: later) :
    ∃ front after rest, script = front ++ ⟨kind, a :: after⟩ :: rest ∧ attempts front = [] := by
  induction script with
  | nil => cases h
  | cons block rest ih =>
    obtain ⟨other, attributes⟩ := block
    cases attributes with
    | nil =>
      obtain ⟨front, after, rest', rfl, hfront⟩ := ih h
      exact ⟨⟨other, []⟩ :: front, after, rest', rfl, hfront⟩
    | cons first after =>
      obtain ⟨⟨⟩, _⟩ := List.cons.inj h
      exact ⟨[], after, rest, rfl, rfl⟩

namespace Registry

variable {r s t : Registry}

/-- Blocks without attributes of kinds that are declared change nothing. -/
theorem Valid.registerAll_of_attempts_eq_nil (h : r.Valid) {script : List Block}
    (hkinds : ∀ block ∈ script, block.kind ∈ r.kinds) (hnothing : Block.attempts script = []) :
    r.registerAll script = ⟨r, none⟩ := by
  induction script with
  | nil => rfl
  | cons block rest ih =>
    obtain ⟨kind, attributes⟩ := block
    rw [Block.attempts, List.flatMap_cons, List.append_eq_nil_iff, List.map_eq_nil_iff] at hnothing
    obtain ⟨rfl, hrest⟩ := hnothing
    rw [List.forall_mem_cons] at hkinds
    have hblock : r.register ⟨kind, []⟩ = ⟨r, none⟩ := by
      rw [register, h.declare_of_mem hkinds.1]
      rfl
    exact registerAll_cons_eq_iff.mpr (Or.inl ⟨r, hblock, ih hkinds.2 hrest⟩)

/-- Behind blocks that have been appended, an attribute is refused exactly if the schema that they
have made of its kind refuses it. -/
theorem Appends.refuses_iff (h : r.Appends blocks s) {kind : String}
    (hkind : kind ∈ blocks.map (·.kind)) {a : Attribute} {e : Error} :
    s.addAttribute kind a = .error e ↔ (r.schemaAfter blocks kind).Refusal a e := by
  have hschema := h.schema?_eq kind (h.mem_kinds_iff.mpr (Or.inr hkind))
  rw [addAttribute_eq_error_iff hschema, Schema.add_eq_error_iff]

/-- A script that adds anything cannot be run again after it has succeeded, whatever else has been
declared: its first attribute is refused, before anything has changed. -/
theorem Appends.registerAll_again {script : List Block} (h : r.Appends script s)
    (hgrows : s.Grows t) {kind : String} {a : Attribute} {later : List (String × Attribute)}
    (hfirst : Block.attempts script = (kind, a) :: later) :
    t.registerAll script = ⟨t, some (.schema kind (.duplicateAttribute a.name))⟩ := by
  have hextension := hgrows.extension h.valid
  have ht := hextension.valid
  have hschema : ∀ block ∈ script, ∃ added,
      t.schema? block.kind = some ((r.schemaAfter script block.kind).extend added) := by
    intro block hblock
    have hkind := h.mem_kinds_iff.mpr (Or.inr (List.mem_map_of_mem (f := (·.kind)) hblock))
    exact hextension.schema?_extend block.kind _ (h.schema?_eq block.kind hkind)
  have htried : a ∈ Block.triedOn kind script := by
    rw [Block.mem_triedOn_iff, hfirst]
    exact List.mem_cons_self
  obtain ⟨front, after, rest, rfl, hfront⟩ := Block.attempts_eq_cons hfirst
  have hblock : ⟨kind, a :: after⟩ ∈ front ++ ⟨kind, a :: after⟩ :: rest :=
    List.mem_append_right _ List.mem_cons_self
  obtain ⟨added, hadded⟩ := hschema _ hblock
  have hdeclared : ∀ block ∈ front ++ [⟨kind, []⟩], block.kind ∈ t.kinds := by
    simp only [List.forall_mem_append, List.forall_mem_singleton]
    refine ⟨fun block hmem => ?_, ht.mem_kinds_iff.mpr ⟨_, hadded⟩⟩
    obtain ⟨more, hmore⟩ := hschema block (List.mem_append_left _ hmem)
    exact ht.mem_kinds_iff.mpr ⟨_, hmore⟩
  have hnothing : Block.attempts (front ++ [⟨kind, []⟩]) = [] := by
    rw [Block.attempts, List.flatMap_append]
    exact List.append_eq_nil_iff.mpr ⟨hfront, rfl⟩
  refine registerAll_eq_error_iff.mpr ⟨front, kind, [], a, after, rest, rfl, ?_, ?_⟩
  · exact ht.registerAll_of_attempts_eq_nil hdeclared hnothing
  · rw [addAttribute_eq_error_iff hadded, Schema.add_eq_error_iff]
    apply Schema.Refusal.duplicate (b := a) _ rfl
    exact List.mem_append_left _ (List.mem_append_right _ htried)

/-- A script succeeds exactly if every default fits, no name is added to a kind twice, and none
that the kind has already; all of it is appended then. One that fails does so at its first
attribute that is refused: the error is the one of that attribute, and the registry is the one
that the part of the script before it leaves. A script that adds anything fails when it is run
once more, at once or later, with nothing changed. -/
theorem Reachable.registerAll_exact (h : r.Reachable) (script : List Block) :
    ((r.registerAll script).error? = none ↔
      (∀ kind a, (kind, a) ∈ Block.attempts script → a.DefaultFits) ∧
      ((Block.attempts script).map fun added => (added.1, added.2.name)).Nodup ∧
      ∀ kind a, (kind, a) ∈ Block.attempts script →
        ∀ b ∈ r.attributesOf kind, b.name ≠ a.name) ∧
    (∀ s, r.registerAll script = ⟨s, none⟩ → ∀ t, r.Appends script t ↔ t = s) ∧
    (∀ s e, r.registerAll script = ⟨s, some e⟩ ↔ ∃ front kind before a after rest,
      script = front ++ ⟨kind, before ++ a :: after⟩ :: rest ∧
      r.registerAll (front ++ [⟨kind, before⟩]) = ⟨s, none⟩ ∧
      (r.schemaAfter (front ++ [⟨kind, before⟩]) kind).Refusal a e) ∧
    ∀ s, r.registerAll script = ⟨s, none⟩ → ∀ kind a later,
      Block.attempts script = (kind, a) :: later → ∀ t, s.Grows t →
      t.registerAll script = ⟨t, some (.schema kind (.duplicateAttribute a.name))⟩ := by
  obtain ⟨hempty, hself⟩ := h.valid.appends_nil
  have happended : ∀ blocks s, r.registerAll blocks = ⟨s, none⟩ → r.Appends blocks s := by
    intro blocks s hs
    have hresult := (hself.registerAll h.valid hempty blocks).2
    rw [hs] at hresult
    exact hresult rfl
  refine ⟨?_, fun s hs t => ⟨?_, ?_⟩, fun s e => ?_, fun s hs kind a later hfirst t hgrows => ?_⟩
  · rw [← h.valid.accepts_iff]
    exact (hself.registerAll h.valid hempty script).1
  · exact fun ht => ht.unique (happended script s hs)
  · rintro rfl
    exact happended script t hs
  · rw [registerAll_eq_error_iff]
    have hrefused : ∀ front kind before a, r.registerAll (front ++ [⟨kind, before⟩]) = ⟨s, none⟩ →
        (s.addAttribute kind a = .error e ↔
          (r.schemaAfter (front ++ [⟨kind, before⟩]) kind).Refusal a e) :=
      fun front kind before a hfront => (happended _ s hfront).refuses_iff (by simp)
    constructor
    · rintro ⟨front, kind, before, a, after, rest, hsplit, hfront, herror⟩
      exact ⟨front, kind, before, a, after, rest, hsplit, hfront,
        (hrefused front kind before a hfront).mp herror⟩
    · rintro ⟨front, kind, before, a, after, rest, hsplit, hfront, herror⟩
      exact ⟨front, kind, before, a, after, rest, hsplit, hfront,
        (hrefused front kind before a hfront).mpr herror⟩
  · exact (happended script s hs).registerAll_again hgrows hfirst

/-- A script reopens a built-in kind twice, around the declaration of a new one. It is appended,
and is refused when it is run again behind one that fails at a default. -/
theorem Reachable.registerAll_exact_reopened :
    let r := (({ family := "executor" } : Registry).registerAll Builtin.executors).registry
    let script : List Block := [⟨"vm", [.withDefault "heap" .int 64]⟩,
      ⟨"jit", [⟨"level", .int, none⟩]⟩, ⟨"vm", [⟨"trace", .bool, none⟩]⟩]
    let wrong : List Block :=
      [⟨"jit", [⟨"eager", .bool, none⟩, ⟨"level", .int, some (.bool true)⟩]⟩]
    let s := (r.registerAll script).registry
    let t := (s.registerAll wrong).registry
    r.Reachable ∧ r.Appends script s ∧
      r.registerAll wrong = ⟨(r.registerAll [⟨"jit", [⟨"eager", .bool, none⟩]⟩]).registry,
        some (.schema "jit" (.wrongDefault "level" .int .bool))⟩ ∧
      t.registerAll script = ⟨t, some (.schema "vm" (.duplicateAttribute "heap"))⟩ := by
  intro r script wrong s t
  have hr : r.Reachable := ⟨"executor", Grows.refl.registerAll Builtin.executors⟩
  have hgrows : s.Grows t := Grows.refl.registerAll wrong
  obtain ⟨-, happends, -, hagain⟩ := hr.registerAll_exact script
  obtain ⟨-, -, hfails, -⟩ := hr.registerAll_exact wrong
  have hs : r.registerAll script = ⟨s, none⟩ := by decide
  refine ⟨hr, (happends s hs s).mpr rfl, ?_, hagain s hs "vm" _ _ rfl t hgrows⟩
  refine (hfails _ _).mpr ⟨[], "jit", [⟨"eager", .bool, none⟩], _, [], [], rfl, ?_, ?_⟩
  · decide
  · apply Schema.Refusal.mismatch (v := .bool true) _ rfl (by decide)
    decide

end Registry

end ComponentKinds
