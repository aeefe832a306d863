import ComponentKinds.Proofs.Family.Reachable
import ComponentKinds.Proofs.Registry.Lookups

/-!
# The order of independent declarers

Declarers that touch no kind in common may be supplied in any order to the start-up of a family.
It succeeds in one order exactly if it succeeds in another, and the registries that it installs
differ in the order only in which they list the kinds that are not built in.
-/

namespace ComponentKinds

/-- Two registries answer every question about a kind in the same way. -/
structure Registry.AnswerAlike (r s : Registry) (kind : String) : Prop where
  contains_eq : r.contains kind = s.contains kind
  schema?_eq : r.schema? kind = s.schema? kind
  options_eq : r.options kind = s.options kind
  create_eq : ∀ config, r.create kind config = s.create kind config
  createFromJson_eq : ∀ j, r.createFromJson kind j = s.createFromJson kind j

/-- Registries of one family answer alike about a kind that has the same schema in both. -/
theorem Registry.Valid.answerAlike {r s : Registry} (hr : r.Valid) (hs : s.Valid)
    (hfamily : r.family = s.family) {kind : String} (hschema : r.schema? kind = s.schema? kind) :
    r.AnswerAlike s kind := by
  have hlookup : r.lookup kind = s.lookup kind := by
    rw [lookup, lookup, hschema, hfamily]
  have hcreate : ∀ config, r.create kind config = s.create kind config := by
    intro config
    rw [create, create, hlookup, hfamily]
  refine ⟨?_, hschema, ?_, hcreate, fun j => ?_⟩
  · rw [Bool.eq_iff_iff, contains, contains, hr.contains_iff, hs.contains_iff, hr.mem_kinds_iff,
      hs.mem_kinds_iff, hschema]
  · rw [options, options, hlookup]
  · rw [createFromJson, createFromJson, hlookup]
    simp only [hcreate]

/-- What a registrar leaves behind that has come to an outcome, and has done nothing else. -/
def Outcome.toRun (o : Outcome) (installed : Option Registry) : Run :=
  ⟨match o.error? with
    | none => .ok ()
    | some e => .error e, o.registry, installed, []⟩

theorem Outcome.result_toRun_eq_ok_iff {o : Outcome} {installed : Option Registry} :
    (o.toRun installed).result = .ok () ↔ o.error? = none := by
  rw [toRun]
  cases o.error? <;> simp

/-- Registries of the same schemas that have grown from one list the kinds from before in the same
order, and then the same new ones. -/
theorem Registry.Within.kinds_perm {touched touched' : String → Prop} {base r s : Registry}
    (hr : Within touched base r) (hs : Within touched' base s)
    (hschemas : ∀ kind, r.schema? kind = s.schema? kind) :
    ∃ added added', r.kinds = base.kinds ++ added ∧ s.kinds = base.kinds ++ added' ∧
      added.Perm added' := by
  obtain ⟨added, hadded⟩ := hr.kinds_prefix
  obtain ⟨added', hadded'⟩ := hs.kinds_prefix
  have hperm : r.kinds.Perm s.kinds := by
    rw [List.perm_ext_iff_of_nodup hr.valid.kinds_nodup hs.valid.kinds_nodup]
    intro kind
    rw [hr.valid.mem_kinds_iff, hs.valid.mem_kinds_iff, hschemas]
  rw [← hadded, ← hadded', List.perm_append_left_iff] at hperm
  exact ⟨added, added', hadded.symm, hadded'.symm, hperm⟩

namespace Declarer

/-- The registrar of a declarer does what the declarer does. -/
theorem run_registrar (family : String) (d : Declarer) (r : Registry)
    (installed : Option Registry) :
    d.registrar.run family r installed = (d.run r).toRun installed := by
  induction d generalizing r with
  | finish error? => cases error? <;> rfl
  | register block next ih => exact ih _ _

/-- The registrars of declarers do in order what the declarers do. -/
theorem runAll_registrars (family : String) (declarers : List Declarer) (r : Registry)
    (installed : Option Registry) :
    Registrar.runAll family (declarers.map (·.registrar)) r installed =
      (runAll declarers r).toRun installed := by
  induction declarers generalizing r with
  | nil => rfl
  | cons first rest ih =>
    rw [List.map_cons, Registrar.runAll, run_registrar, runAll]
    cases herror : (first.run r).error? with
    | none =>
      simp only [Run.chain, Outcome.result_toRun_eq_ok_iff.mpr herror]
      exact ih _
    | some e =>
      have hresult : ((first.run r).toRun installed).result = .error e := by
        rw [Outcome.toRun, herror]
      simp only [Run.chain, hresult]

/-- Independent declarers succeed in one order exactly if they do in another, and leave registries
that answer alike and list the new kinds in some order. -/
theorem runAll_perm {declarers others : List Declarer} {base : Registry} (hbase : base.Valid)
    (hindependent : declarers.Pairwise Independent) (hperm : declarers.Perm others) :
    ((∃ r, runAll declarers base = ⟨r, none⟩) ↔ ∃ s, runAll others base = ⟨s, none⟩) ∧
      ∀ r s, runAll declarers base = ⟨r, none⟩ → runAll others base = ⟨s, none⟩ →
        (∀ kind, r.AnswerAlike s kind) ∧
        ∃ added added', r.kinds = base.kinds ++ added ∧ s.kinds = base.kinds ++ added' ∧
          added.Perm added' := by
  have hindependent' : others.Pairwise Independent :=
    hperm.pairwise hindependent fun hde => hde.symm
  obtain ⟨hiff, hresult⟩ := runAll_of_independent hbase hbase hindependent fun _ _ _ _ => rfl
  obtain ⟨hiff', hresult'⟩ := runAll_of_independent hbase hbase hindependent' fun _ _ _ _ => rfl
  refine ⟨?_, fun r s hr hs => ?_⟩
  · rw [hiff, hiff']
    simp only [hperm.mem_iff]
  · obtain ⟨hwithin, htouched⟩ := hresult r hr
    obtain ⟨hwithin', htouched'⟩ := hresult' s hs
    have hschemas : ∀ kind, r.schema? kind = s.schema? kind := by
      intro kind
      by_cases htouches : ∃ d ∈ declarers, d.Touches kind
      · obtain ⟨d, hd, hkind⟩ := htouches
        rw [htouched d hd kind hkind, htouched' d (hperm.mem_iff.mp hd) kind hkind]
      · have htouches' : ¬∃ d ∈ others, d.Touches kind := by
          simpa only [hperm.mem_iff] using htouches
        rw [hwithin.schema?_eq kind htouches, hwithin'.schema?_eq kind htouches']
    have hfamily : r.family = s.family := hwithin.family_eq.trans hwithin'.family_eq.symm
    exact ⟨fun kind => hwithin.valid.answerAlike hwithin'.valid hfamily (hschemas kind),
      hwithin.kinds_perm hwithin' hschemas⟩

end Declarer

/-- A start-up succeeds exactly if its registrars do and nothing is installed by then, with the
registry that they have built. -/
theorem Run.settle_eq_ok_iff {family : String} {run : Run} {r : Registry} :
    (run.settle family).1.result = .ok r ↔
      run.result = .ok () ∧ run.installed = none ∧ run.registry = r := by
  cases hresult : run.result with
  | error e =>
    rw [settle_of_error hresult]
    exact ⟨nofun, nofun⟩
  | ok _ =>
    cases hinstalled : run.installed with
    | some s =>
      rw [settle_of_some hresult hinstalled]
      exact ⟨nofun, nofun⟩
    | none =>
      rw [settle_of_none hresult hinstalled]
      simp [StartReport.result]

namespace Family

variable {name : String} {builtIn : Registrar} {declarers others : List Declarer} {r s : Registry}

/-- A start-up that succeeds installs the registry that it returns. -/
theorem installed_of_start_eq_ok {registrars : List Registrar}
    (h : (({ name, builtIn } : Family).start registrars).1.result = .ok r) :
    (({ name, builtIn } : Family).start registrars).2.installed = some r := by
  obtain ⟨hresult, hinstalled, hregistry⟩ := Run.settle_eq_ok_iff.mp h
  exact (congrArg Prod.snd (Run.settle_of_none hresult hinstalled)).trans (congrArg some hregistry)

/-- The start-up of a family with declarers succeeds exactly if its built-in registrar does,
without a registry being installed by then, and the declarers do behind it. -/
theorem start_declarers_eq_ok_iff :
    let base := builtIn.run name { family := name } none
    (({ name, builtIn } : Family).start (declarers.map (·.registrar))).1.result = .ok r ↔
      base.result = .ok () ∧ base.installed = none ∧
        Declarer.runAll declarers base.registry = ⟨r, none⟩ := by
  intro base
  let run := base.chain (Registrar.runAll name (declarers.map (·.registrar)))
  have hsettle : (run.settle name).1.result = .ok r ↔ _ := Run.settle_eq_ok_iff
  refine Iff.trans hsettle ?_
  cases hresult : base.result with
  | error e =>
    have hrun : run = base := by simp only [run, Run.chain, hresult]
    rw [hrun, hresult]
    constructor
    · rintro ⟨⟨⟩, -⟩
    · rintro ⟨⟨⟩, -⟩
  | ok _ =>
    let built := Declarer.runAll declarers base.registry
    have hrun : run = { built.toRun base.installed with inner := base.inner ++ [] } := by
      simp only [run, Run.chain, hresult, Declarer.runAll_registrars]
      rfl
    have hbuilt : built = ⟨r, none⟩ ↔ built.registry = r ∧ built.error? = none := by
      rw [← Outcome.mk.injEq]
    rw [hrun, Outcome.result_toRun_eq_ok_iff, hbuilt]
    constructor
    · rintro ⟨herror, hnone, hregistry⟩
      exact ⟨rfl, hnone, hregistry, herror⟩
    · rintro ⟨-, hnone, hregistry, herror⟩
      exact ⟨herror, hnone, hregistry⟩

/-- Declarers that touch no kind in common may be supplied in any order. A built-in registrar may
do whatever else it likes, as long as it only makes declarations in the registry. -/
theorem start_perm
    (hbuiltIn : (builtIn.run name { family := name } none).registry.Reachable)
    (hindependent : declarers.Pairwise Declarer.Independent) (hperm : declarers.Perm others) :
    let f : Family := { name, builtIn }
    let first := f.start (declarers.map (·.registrar))
    let second := f.start (others.map (·.registrar))
    let builtInKinds := (builtIn.run name { family := name } none).registry.kinds
    ((∃ r, first.1.result = .ok r) ↔ ∃ s, second.1.result = .ok s) ∧
      ∀ r s, first.1.result = .ok r → second.1.result = .ok s →
        first.2.installed = some r ∧ second.2.installed = some s ∧
        (∀ kind, r.AnswerAlike s kind) ∧
        ∃ added added', r.kinds = builtInKinds ++ added ∧ s.kinds = builtInKinds ++ added' ∧
          added.Perm added' := by
  intro f first second builtInKinds
  obtain ⟨hiff, halike⟩ := Declarer.runAll_perm hbuiltIn.valid hindependent hperm
  refine ⟨?_, fun r s hr hs => ?_⟩
  · simp only [first, second, f, start_declarers_eq_ok_iff, exists_and_left, hiff]
  · obtain ⟨-, -, hrun⟩ := start_declarers_eq_ok_iff.mp hr
    obtain ⟨-, -, hrun'⟩ := start_declarers_eq_ok_iff.mp hs
    exact ⟨installed_of_start_eq_ok hr, installed_of_start_eq_ok hs, halike r s hrun hrun'⟩

/-- Of two registrars for executors, one reopens a built-in kind and declares another one, and the
other goes on after an error. They may be supplied either way. -/
theorem start_perm_executors :
    let blocks : List Block := [⟨"graph", [.withDefault "depth" .int 1]⟩, ⟨"vm", []⟩]
    let careless := Declarer.register ⟨"jit", [⟨"level", .int, some (.bool true)⟩]⟩
      fun _ => .finish none
    let first := executors.start [.ofBlocks blocks, careless.registrar]
    let second := executors.start [careless.registrar, .ofBlocks blocks]
    ∃ r s, first.2.installed = some r ∧ second.2.installed = some s ∧
      r.kinds = ["graph", "aot", "vm", "jit"] ∧ s.kinds = ["graph", "aot", "jit", "vm"] ∧
      ∀ kind, r.AnswerAlike s kind := by
  intro blocks careless first second
  let reopening := Declarer.ofBlocks blocks
  have hregistrar : reopening.registrar = .ofBlocks blocks := Declarer.registrar_ofBlocks blocks
  have hbuiltIn : ((Registrar.ofBlocks Builtin.executors).run "executor"
      { family := "executor" } none).registry.Reachable :=
    (Registrar.declares_ofBlocks Builtin.executors).reachable_run
  have hindependent : [reopening, careless].Pairwise Declarer.Independent := by
    rw [List.pairwise_pair]
    intro kind hreopening hcareless
    rw [Declarer.touches_ofBlocks_iff] at hreopening
    rcases Declarer.touches_register_iff.mp hcareless with rfl | ⟨_, ⟨⟩⟩
    simp [blocks] at hreopening
  have hperm : [reopening, careless].Perm [careless, reopening] := List.Perm.swap ..
  obtain ⟨hiff, halike⟩ := start_perm hbuiltIn hindependent hperm
  simp only [List.map_cons, List.map_nil, hregistrar] at hiff halike
  obtain ⟨r, hr⟩ : ∃ r, first.1.result = .ok r := ⟨_, rfl⟩
  obtain ⟨s, hs⟩ := hiff.mp ⟨r, hr⟩
  obtain ⟨hfirst, hsecond, hsame, -⟩ := halike r s hr hs
  refine ⟨r, s, hfirst, hsecond, ?_, ?_, hsame⟩
  · cases hr
    decide
  · cases hs
    decide

end Family

end ComponentKinds
