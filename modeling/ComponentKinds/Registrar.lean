import ComponentKinds.Registry.Basic

/-!
# Registrars

A registrar fills the registry of a family while the family starts up. What it does is a
tree: it changes the registry that is being built and goes on as that registry demands,
it looks at the installed registry, or it starts up the same family itself and goes on
with the result. The nested start-up runs the built-in registrar again and then registrars
of its own, so that the behaviour of all these is part of its node.

A start-up runs its registrars in order on a fresh registry, and the first error ends it.
The registry is installed at the end, unless a nested start-up has installed one in the
meantime; then the outer start-up fails. No start-up replaces an installed registry.
-/

namespace ComponentKinds

/-- What a registrar does. -/
inductive Registrar where
  /-- The registrar returns. -/
  | finish (result : Except Error Unit)
  /-- It changes the registry and goes on by what the registry was before. -/
  | edit (change : Registry → Registry) (next : Registry → Registrar)
  /-- It looks at the installed registry. -/
  | inspect (next : Option Registry → Registrar)
  /-- It starts up the family; the built-in registrar and the supplied ones do in there
  what the node says. -/
  | startUp (builtIn : Registrar) (supplied : List Registrar)
    (next : Except Error Registry → Registrar)

namespace Registrar

/-- The registrar that runs the blocks of a script up to the first error. -/
def ofBlocks : List Block → Registrar
  | [] => .finish (.ok ())
  | block :: rest =>
    .edit (fun r => (r.register block).registry) fun r =>
      match (r.register block).error? with
      | none => ofBlocks rest
      | some e => .finish (.error e)

/-- Run a second registrar unless the first one fails. -/
def andThen : Registrar → Registrar → Registrar
  | .finish (.ok ()), second => second
  | .finish (.error e), _ => .finish (.error e)
  | .edit change next, second => .edit change fun r => (next r).andThen second
  | .inspect next, second => .inspect fun r => (next r).andThen second
  | .startUp builtIn supplied next, second =>
    .startUp builtIn supplied fun result => (next result).andThen second

end Registrar

/-- What a start-up came to, with the reports of the start-ups that its registrars made
directly, in order. -/
inductive StartReport where
  | mk (result : Except Error Registry) (inner : List StartReport)

namespace StartReport

/-- The installed registry, or the error. -/
def result : StartReport → Except Error Registry
  | .mk result _ => result

/-- The reports of the start-ups made directly by the registrars. -/
def inner : StartReport → List StartReport
  | .mk _ inner => inner

end StartReport

/-- What running registrars leaves behind. -/
structure Run where
  /-- Whether all succeeded, or the first error. -/
  result : Except Error Unit
  /-- The registry that is being built. -/
  registry : Registry
  /-- The installed registry of the family. -/
  installed : Option Registry
  /-- The reports of the start-ups that the registrars made. -/
  inner : List StartReport

namespace Run

/-- Go on after a run that succeeded. -/
def chain (first : Run) (more : Registry → Option Registry → Run) : Run :=
  match first.result with
  | .error _ => first
  | .ok () =>
    let second := more first.registry first.installed
    { second with inner := first.inner ++ second.inner }

/-- The end of a start-up: its registry is installed if all registrars succeeded and none
is installed yet. -/
def settle (family : String) (run : Run) : StartReport × Option Registry :=
  match run.result, run.installed with
  | .error e, installed => (.mk (.error e) run.inner, installed)
  | .ok (), some registry =>
    (.mk (.error (.alreadyInitialized family)) run.inner, some registry)
  | .ok (), none => (.mk (.ok run.registry) run.inner, some run.registry)

end Run

/-- A start-up, given what its registrars do on a fresh registry as long as none is
installed; otherwise they do not run. -/
def startWith (family : String) (installed : Option Registry) (registrars : Unit → Run) :
    StartReport × Option Registry :=
  match installed with
  | some registry => (.mk (.error (.alreadyInitialized family)) [], some registry)
  | none => (registrars ()).settle family

namespace Registrar

mutual

/-- Run a registrar on a registry that is being built. -/
def run (family : String) : Registrar → Registry → Option Registry → Run
  | .finish result, r, installed => ⟨result, r, installed, []⟩
  | .edit change next, r, installed => (next r).run family (change r) installed
  | .inspect next, r, installed => (next installed).run family r installed
  | .startUp builtIn supplied next, r, installed =>
    let (report, installed) := startWith family installed fun _ =>
      (builtIn.run family { family } none).chain fun r installed =>
        runAll family supplied r installed
    let rest := (next report.result).run family r installed
    { rest with inner := report :: rest.inner }

/-- Run registrars in order, up to the first that fails. -/
def runAll (family : String) : List Registrar → Registry → Option Registry → Run
  | [], r, installed => ⟨.ok (), r, installed, []⟩
  | first :: rest, r, installed =>
    (first.run family r installed).chain fun r installed => runAll family rest r installed

end

/-- Start up a family: the report, and the registry that is installed afterwards. -/
def startFamily (family : String) (builtIn : Registrar) (supplied : List Registrar)
    (installed : Option Registry) : StartReport × Option Registry :=
  startWith family installed fun _ =>
    (builtIn.run family { family } none).chain fun r installed =>
      runAll family supplied r installed

end Registrar

end ComponentKinds
