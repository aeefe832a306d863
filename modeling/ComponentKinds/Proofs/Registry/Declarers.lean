import ComponentKinds.Proofs.Registry.Blocks
import ComponentKinds.Registrar

/-!
# Declarers and the kinds that they touch

A declarer is a registrar that does nothing but run blocks of declarations; it may go on in
different ways after a block that has failed. All that it learns of a registry are the errors of
its blocks, so it depends on the kinds that it touches alone, and it leaves all others as they
are. Declarers that touch no kind in common therefore do not notice each other: each of several
does what it would have done on the registry before all of them.
-/

namespace ComponentKinds

/-- A registrar that runs blocks and goes on by their errors. -/
inductive Declarer where
  /-- It succeeds, or fails with an error. -/
  | finish (error? : Option Error)
  /-- It runs a block and goes on by the error of the block, if there is one. -/
  | register (block : Block) (next : Option Error → Declarer)

namespace Declarer

/-- The registrar that does what a declarer does. -/
def registrar : Declarer → Registrar
  | finish none => .finish (.ok ())
  | finish (some e) => .finish (.error e)
  | register block next =>
    .edit (fun r => (r.register block).registry) fun r => (next (r.register block).error?).registrar

/-- The declarer that runs the blocks of a script up to the first error. -/
def ofBlocks : List Block → Declarer
  | [] => finish none
  | block :: rest => register block fun
    | none => ofBlocks rest
    | some e => finish (some e)

/-- The registrar of a script is that of its declarer. -/
theorem registrar_ofBlocks (blocks : List Block) :
    (ofBlocks blocks).registrar = Registrar.ofBlocks blocks := by
  induction blocks with
  | nil => rfl
  | cons block rest ih =>
    rw [ofBlocks, registrar, Registrar.ofBlocks]
    congr 1
    funext r
    cases (r.register block).error? with
    | none => exact ih
    | some e => rfl

/-- What a declarer makes of a registry, and its error. -/
def run : Declarer → Registry → Outcome
  | finish error?, r => ⟨r, error?⟩
  | register block next, r => (next (r.register block).error?).run (r.register block).registry

/-- Run declarers in order, up to the first that fails. -/
def runAll : List Declarer → Registry → Outcome
  | [], r => { registry := r }
  | first :: rest, r =>
    match (first.run r).error? with
    | none => runAll rest (first.run r).registry
    | some _ => first.run r

theorem runAll_cons_eq_ok_iff {first : Declarer} {rest : List Declarer} {r t : Registry} :
    runAll (first :: rest) r = ⟨t, none⟩ ↔
      (first.run r).error? = none ∧ runAll rest (first.run r).registry = ⟨t, none⟩ := by
  rw [runAll]
  obtain ⟨s, error?⟩ := first.run r
  cases error? <;> simp

/-- The kinds that a declarer may declare, whatever errors it meets. -/
inductive Touches : Declarer → String → Prop
  | block (block : Block) (next : Option Error → Declarer) :
      Touches (register block next) block.kind
  | next {block : Block} {next : Option Error → Declarer} {kind : String} (error? : Option Error)
      (h : Touches (next error?) kind) : Touches (register block next) kind

theorem touches_register_iff {block : Block} {next : Option Error → Declarer} {kind : String} :
    (register block next).Touches kind ↔
      kind = block.kind ∨ ∃ error?, (next error?).Touches kind := by
  constructor
  · rintro (_ | ⟨error?, h⟩)
    · exact Or.inl rfl
    · exact Or.inr ⟨error?, h⟩
  · rintro (rfl | ⟨error?, h⟩)
    · exact .block block next
    · exact .next error? h

/-- The declarer of a script touches the kinds of its blocks. -/
theorem touches_ofBlocks_iff {blocks : List Block} {kind : String} :
    (ofBlocks blocks).Touches kind ↔ kind ∈ blocks.map (·.kind) := by
  induction blocks with
  | nil => exact ⟨nofun, nofun⟩
  | cons block rest ih =>
    rw [ofBlocks, touches_register_iff, List.map_cons, List.mem_cons, ← ih]
    refine or_congr_right ⟨?_, fun h => ⟨none, h⟩⟩
    rintro ⟨_ | e, h⟩
    · exact h
    · cases h

/-- Declarers without a kind that both of them touch. -/
def Independent (d e : Declarer) : Prop := ∀ kind, d.Touches kind → ¬e.Touches kind

theorem Independent.symm {d e : Declarer} (h : d.Independent e) : e.Independent d :=
  fun kind he hd => h kind hd he

end Declarer

namespace Registry

/-- A registry with further declarations for some kinds at most. -/
structure Within (touched : String → Prop) (r s : Registry) : Prop where
  /-- Positions and schemas are in step. -/
  valid : s.Valid
  /-- The family stays. -/
  family_eq : s.family = r.family
  /-- The kinds from before are listed first. -/
  kinds_prefix : r.kinds <+: s.kinds
  /-- Other kinds keep their schemas. -/
  schema?_eq : ∀ kind, ¬touched kind → s.schema? kind = r.schema? kind

variable {touched wider : String → Prop} {r s t : Registry}

theorem Valid.within_refl (h : r.Valid) : Within touched r r :=
  ⟨h, rfl, List.prefix_rfl, fun _ _ => rfl⟩

theorem Within.trans (h : Within touched r s) (h' : Within touched s t) : Within touched r t :=
  ⟨h'.valid, h'.family_eq.trans h.family_eq, h.kinds_prefix.trans h'.kinds_prefix,
    fun kind hkind => (h'.schema?_eq kind hkind).trans (h.schema?_eq kind hkind)⟩

theorem Within.widen (h : Within touched r s) (hsub : ∀ kind, touched kind → wider kind) :
    Within wider r s :=
  ⟨h.valid, h.family_eq, h.kinds_prefix, fun kind hkind => h.schema?_eq kind (mt (hsub kind) hkind)⟩

/-- A block declares nothing for other kinds than its own. -/
theorem Valid.within_register (h : r.Valid) {block : Block} (htouched : touched block.kind) :
    Within touched r (r.register block).registry := by
  have hsets := h.sets_register block
  refine ⟨hsets.valid, hsets.family_eq, ?_, fun kind hkind => ?_⟩
  · by_cases hold : block.kind ∈ r.kinds
    · exact ⟨[], by rw [List.append_nil, hsets.kinds_eq, if_pos hold]⟩
    · exact ⟨[block.kind], by rw [hsets.kinds_eq, if_neg hold]⟩
  · have hne : kind ≠ block.kind := fun heq => hkind (heq ▸ htouched)
    rw [hsets.schema?_eq, if_neg hne]

/-- A block does the same wherever its kind has the same schema. -/
theorem Valid.register_congr (hr : r.Valid) (hs : s.Valid) {block : Block}
    (h : r.schema? block.kind = s.schema? block.kind) :
    (r.register block).error? = (s.register block).error? ∧
      ∀ kind, r.schema? kind = s.schema? kind →
        (r.register block).registry.schema? kind = (s.register block).registry.schema? kind := by
  have hsets := hr.sets_register block
  have hsets' := hs.sets_register block
  rw [← h] at hsets'
  refine ⟨hsets.error?_eq.trans hsets'.error?_eq.symm, fun kind hkind => ?_⟩
  rw [hsets.schema?_eq, hsets'.schema?_eq, hkind]

end Registry

namespace Declarer

open Registry

variable {r s : Registry}

/-- A declarer declares nothing for kinds that it does not touch. -/
theorem within_run (hr : r.Valid) (d : Declarer) : Within d.Touches r (d.run r).registry := by
  induction d generalizing r with
  | finish error? => exact hr.within_refl
  | register block next ih =>
    have hblock : Within (register block next).Touches r (r.register block).registry :=
      hr.within_register (.block block next)
    exact hblock.trans ((ih _ hblock.valid).widen fun kind => .next _)

/-- A declarer does the same wherever the kinds that it touches have the same schemas. -/
theorem run_congr (hr : r.Valid) (hs : s.Valid) (d : Declarer)
    (h : ∀ kind, d.Touches kind → r.schema? kind = s.schema? kind) :
    (d.run r).error? = (d.run s).error? ∧ ∀ kind, r.schema? kind = s.schema? kind →
      (d.run r).registry.schema? kind = (d.run s).registry.schema? kind := by
  induction d generalizing r s with
  | finish error? => exact ⟨rfl, fun kind hkind => hkind⟩
  | register block next ih =>
    obtain ⟨herror, hafter⟩ := hr.register_congr hs (h block.kind (.block block next))
    have hvalid := (hr.sets_register block).valid
    have hvalid' := (hs.sets_register block).valid
    obtain ⟨herror', hrest⟩ := ih (r.register block).error? hvalid hvalid'
      fun kind htouches => hafter kind (h kind (.next _ htouches))
    rw [run, run, ← herror]
    exact ⟨herror', fun kind hkind => hrest kind (hafter kind hkind)⟩

/-- Independent declarers succeed one after the other exactly if each of them succeeds by itself.
Each kind then has the schema that the declarer which touches it gives to it by itself. -/
theorem runAll_of_independent {declarers : List Declarer} (hr : r.Valid) (hs : s.Valid)
    (hindependent : declarers.Pairwise Independent)
    (hsame : ∀ d ∈ declarers, ∀ kind, d.Touches kind → s.schema? kind = r.schema? kind) :
    ((∃ t, runAll declarers s = ⟨t, none⟩) ↔ ∀ d ∈ declarers, (d.run r).error? = none) ∧
      ∀ t, runAll declarers s = ⟨t, none⟩ →
        Within (fun kind => ∃ d ∈ declarers, d.Touches kind) s t ∧
        ∀ d ∈ declarers, ∀ kind, d.Touches kind →
          t.schema? kind = (d.run r).registry.schema? kind := by
  induction declarers generalizing s with
  | nil =>
    refine ⟨iff_of_true ⟨s, rfl⟩ nofun, ?_⟩
    rintro t ⟨⟩
    exact ⟨hs.within_refl, nofun⟩
  | cons first rest ih =>
    obtain ⟨hfirst, hrest⟩ := List.pairwise_cons.mp hindependent
    rw [List.forall_mem_cons] at hsame
    obtain ⟨herror, hschemas⟩ := run_congr hs hr first hsame.1
    have hwithin := within_run hs first
    obtain ⟨hiff, hresult⟩ := ih hwithin.valid hrest fun d hd kind htouches =>
      (hwithin.schema?_eq kind fun hself => hfirst d hd kind hself htouches).trans
        (hsame.2 d hd kind htouches)
    simp only [runAll_cons_eq_ok_iff]
    refine ⟨?_, fun t ht => ?_⟩
    · rw [exists_and_left, hiff, herror, List.forall_mem_cons]
    · obtain ⟨hlater, hothers⟩ := hresult t ht.2
      refine ⟨?_, List.forall_mem_cons.mpr ⟨fun kind hself => ?_, hothers⟩⟩
      · have hhere : Within (fun kind => ∃ d ∈ first :: rest, d.Touches kind) s
            (first.run s).registry :=
          hwithin.widen fun kind hself => ⟨first, List.mem_cons_self, hself⟩
        refine hhere.trans (hlater.widen ?_)
        rintro kind ⟨d, hd, htouches⟩
        exact ⟨d, List.mem_cons_of_mem _ hd, htouches⟩
      · have huntouched : ¬∃ d ∈ rest, d.Touches kind :=
          fun ⟨d, hd, htouches⟩ => hfirst d hd kind hself htouches
        exact (hlater.schema?_eq kind huntouched).trans (hschemas kind (hsame.1 kind hself))

end Declarer

end ComponentKinds
