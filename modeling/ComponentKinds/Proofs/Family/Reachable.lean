import ComponentKinds.Proofs.Family.Evolution
import ComponentKinds.Proofs.Registry.Declarers

/-!
# Families of reachable registries

A registrar that changes the registry which is being built by blocks of declarations alone may still
look at the installed registry and start up the family as it likes: the registry only grows by
declarations. So whatever is done to a family of such registrars, it installs a reachable registry,
or none.
-/

namespace ComponentKinds

open Family

namespace Registrar

/-- A registrar that changes registries by declarations only. The registrars of the start-ups that
it makes do so too. -/
inductive Declares : Registrar → Prop
  | finish (result : Except Error Unit) : Declares (.finish result)
  | edit {change : Registry → Registry} {next : Registry → Registrar}
      (hchange : ∀ r : Registry, r.Grows (change r)) (h : ∀ r, Declares (next r)) :
      Declares (.edit change next)
  | inspect {next : Option Registry → Registrar} (h : ∀ seen, Declares (next seen)) :
      Declares (.inspect next)
  | startUp {builtIn : Registrar} {supplied : List Registrar}
      {next : Except Error Registry → Registrar}
      (hregistrars : ∀ g ∈ builtIn :: supplied, Declares g) (h : ∀ result, Declares (next result)) :
      Declares (.startUp builtIn supplied next)

/-- The registrar of a declarer makes nothing but declarations. -/
theorem declares_registrar (d : Declarer) : d.registrar.Declares := by
  induction d with
  | finish error? => cases error? <;> exact .finish _
  | register block next ih => exact .edit (fun r => .register block .refl) fun r => ih _

/-- The registrar of a script makes nothing but declarations. -/
theorem declares_ofBlocks (blocks : List Block) : (ofBlocks blocks).Declares := by
  rw [← Declarer.registrar_ofBlocks]
  exact declares_registrar _

variable {family : String} {g : Registrar} {registrars : List Registrar} {r : Registry}
  {installed : Option Registry}

/-- A registry that such a registrar builds grows. -/
theorem Declares.grows (h : g.Declares) : r.Grows (g.run family r installed).registry := by
  induction h generalizing r installed with
  | finish result => exact .refl
  | edit hchange _ ih => exact (hchange r).trans (ih r)
  | inspect _ ih => exact ih installed
  | startUp _ _ _ ih =>
    rw [run_startUp]
    exact ih _

/-- What such a registrar builds of an empty registry is reachable. -/
theorem Declares.reachable_run (h : g.Declares) :
    (g.run family { family } installed).registry.Reachable :=
  ⟨family, h.grows⟩

/-- A registry that such registrars build in order grows. -/
theorem grows_runAll (h : ∀ g ∈ registrars, g.Declares) :
    r.Grows (runAll family registrars r installed).registry := by
  induction registrars generalizing r installed with
  | nil => exact .refl
  | cons first rest ih =>
    obtain ⟨hfirst, hrest⟩ := List.forall_mem_cons.mp h
    rw [runAll, Run.chain]
    split
    · exact hfirst.grows
    · exact hfirst.grows.trans (ih hrest)

/-- A registrar after which the installed registry is reachable, if it was before. -/
def KeepsReachable (family : String) (g : Registrar) : Prop :=
  ∀ r installed, (∀ s ∈ installed, s.Reachable) →
    ∀ s ∈ (g.run family r installed).installed, s.Reachable

/-- Registrars that keep what is installed reachable do so in order. -/
theorem reachable_runAll (h : ∀ g ∈ registrars, g.KeepsReachable family)
    (hinstalled : ∀ s ∈ installed, s.Reachable) :
    ∀ s ∈ (runAll family registrars r installed).installed, s.Reachable := by
  induction registrars generalizing r installed with
  | nil => exact hinstalled
  | cons first rest ih =>
    obtain ⟨hfirst, hrest⟩ := List.forall_mem_cons.mp h
    rw [runAll, Run.chain]
    split
    · exact hfirst r installed hinstalled
    · exact ih hrest (hfirst r installed hinstalled)

end Registrar

/-- A start-up installs the registry that was built, or leaves what is installed. -/
theorem Run.reachable_settle {family : String} {run : Run} (hregistry : run.registry.Reachable)
    (hinstalled : ∀ s ∈ run.installed, s.Reachable) :
    ∀ s ∈ (run.settle family).2, s.Reachable := by
  cases hresult : run.result with
  | error e =>
    rw [settle_of_error hresult]
    exact hinstalled
  | ok _ =>
    cases hbefore : run.installed with
    | some r =>
      rw [settle_of_some hresult hbefore, ← hbefore]
      exact hinstalled
    | none =>
      rw [settle_of_none hresult hbefore]
      rintro s ⟨⟩
      exact hregistry

namespace Family

variable {family : String}

/-- What is installed after a start-up is reachable, if its registrars keep it so and make nothing
but declarations. -/
theorem StartUp.reachable_after {builtIn : Registrar} {supplied : List Registrar}
    {installed : Option Registry} (hdeclares : ∀ g ∈ builtIn :: supplied, g.Declares)
    (hkept : ∀ g ∈ builtIn :: supplied, g.KeepsReachable family)
    (hinstalled : ∀ s ∈ installed, s.Reachable) :
    ∀ s ∈ (StartUp.of family builtIn supplied installed).after, s.Reachable := by
  cases installed with
  | some r => exact hinstalled
  | none =>
    rw [StartUp.of_none rfl]
    apply Run.reachable_settle
    · exact ⟨family, Registrar.grows_runAll hdeclares⟩
    · exact Registrar.reachable_runAll hkept hinstalled

end Family

/-- A registrar that makes nothing but declarations keeps what is installed reachable. -/
theorem Registrar.Declares.keepsReachable {g : Registrar} (h : g.Declares) {family : String} :
    g.KeepsReachable family := by
  induction h with
  | finish result => exact fun _ _ hinstalled => hinstalled
  | edit _ _ ih => exact fun r => ih r _
  | inspect _ ih => exact fun r installed => ih installed r installed
  | startUp hregistrars _ hkept ih =>
    intro r installed hinstalled
    rw [run_startUp]
    exact ih _ r _ (StartUp.reachable_after hregistrars hkept hinstalled)

namespace Family

/-- An operation whose registrars make nothing but declarations. -/
def Operation.Declares : Operation → Prop
  | .startUp builtIn supplied => ∀ g ∈ builtIn :: supplied, g.Declares
  | .read _ => True

/-- Whatever is done to a family, the registry that it installs is reachable, if registrars make
nothing but declarations. -/
theorem reachable_performAll {f : Family} (hinstalled : ∀ s ∈ f.installed, s.Reachable)
    {operations : List Operation} (h : ∀ operation ∈ operations, operation.Declares) :
    ∀ s ∈ (f.performAll operations).family.installed, s.Reachable := by
  induction operations generalizing f with
  | nil => exact hinstalled
  | cons operation rest ih =>
    obtain ⟨hfirst, hrest⟩ := List.forall_mem_cons.mp h
    refine ih ?_ hrest
    cases operation with
    | startUp builtIn supplied =>
      exact StartUp.reachable_after hfirst (fun g hg => (hfirst g hg).keepsReachable) hinstalled
    | read read => exact hinstalled

end Family

end ComponentKinds
