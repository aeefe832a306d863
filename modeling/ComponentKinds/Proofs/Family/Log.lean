import ComponentKinds.Family

/-!
# What happens to a family, in order

The log of a family lists each look at its installed registry and each start-up that ends.
Start-ups that registrars make end before the one that runs these registrars, so that their
entries stand before its own. A fact about the log and about the registry that is installed
before and after it is proved by one induction over what registrars do.
-/

namespace ComponentKinds

namespace Family

/-- A start-up that has ended. -/
structure StartUp where
  /-- What the built-in registrar did. -/
  builtIn : Registrar
  /-- What the supplied registrars would do, in order. -/
  supplied : List Registrar
  /-- The registry that was installed when it began. -/
  before : Option Registry
  /-- What it came to. -/
  report : StartReport
  /-- The registry that was installed when it ended. -/
  after : Option Registry

/-- A start-up of a family in which a registry may be installed. -/
def StartUp.of (family : String) (builtIn : Registrar) (supplied : List Registrar)
    (installed : Option Registry) : StartUp :=
  let (report, after) := Registrar.startFamily family builtIn supplied installed
  ⟨builtIn, supplied, installed, report, after⟩

/-- A question to a family. -/
inductive Read where
  | get
  | isInitialized
  | create (kind : String) (config : Config)
  | kinds
  | options (kind : String)

/-- The answer to a question. -/
inductive Answer where
  | registry (result : Except Error Registry)
  | initialized (value : Bool)
  | component (result : Except Error Component)
  | kinds (result : Except Error (List String))
  | options (result : Except Error (List (String × String)))

namespace Read

/-- What a family answers. -/
def answer (f : Family) : Read → Answer
  | .get => .registry f.get
  | .isInitialized => .initialized f.isInitialized
  | .create kind config => .component (f.create kind config)
  | .kinds => .kinds f.kinds
  | .options kind => .options (f.options kind)

/-- The answer before a registry is installed: there is none, or an error. -/
def refused (family : String) : Read → Answer
  | .get => .registry (.error (.notInitialized family))
  | .isInitialized => .initialized false
  | .create _ _ => .component (.error (.notInitialized family))
  | .kinds => .kinds (.error (.notInitialized family))
  | .options _ => .options (.error (.notInitialized family))

/-- The answer from a registry. -/
def answeredBy (r : Registry) : Read → Answer
  | .get => .registry (.ok r)
  | .isInitialized => .initialized true
  | .create kind config => .component (r.create kind config)
  | .kinds => .kinds (.ok r.kinds)
  | .options kind => .options (r.options kind)

/-- The answer that the installed registry determines. -/
def expected (family : String) (read : Read) : Option Registry → Answer
  | none => read.refused family
  | some r => read.answeredBy r

/-- A family answers from its installed registry alone. -/
theorem answer_eq (f : Family) (read : Read) :
    read.answer f = read.expected f.name f.installed := by
  obtain ⟨name, builtIn, installed⟩ := f
  cases installed with
  | none => cases read <;> rfl
  | some r => cases read <;> rfl

end Read

/-- An entry of the log of a family. -/
inductive Event where
  /-- A registrar looked at the installed registry. -/
  | looked (seen : Option Registry)
  /-- The family answered a question. -/
  | answered (read : Read) (answer : Answer)
  /-- A start-up ended. -/
  | ended (startUp : StartUp)

/-- The entries of a start-up, given those of its registrars as long as no registry is
installed; otherwise they do not run. -/
def StartUp.eventsWith (startUp : StartUp) (registrars : Unit → List Event) : List Event :=
  match startUp.before with
  | some _ => [.ended startUp]
  | none => registrars () ++ [.ended startUp]

end Family

open Family

/-- The entries after a run, if it succeeded. -/
def Run.chainEvents (run : Run) (more : Registry → Option Registry → List Event) : List Event :=
  match run.result with
  | .error _ => []
  | .ok () => more run.registry run.installed

namespace Run

variable {run : Run} {more : Registry → Option Registry → Run}
  {moreEvents : Registry → Option Registry → List Event}

/-- Nothing follows a run that failed. -/
theorem chain_of_error {e : Error} (h : run.result = .error e) :
    run.chain more = run ∧ run.chainEvents moreEvents = [] := by
  rw [chain, chainEvents, h]
  exact ⟨rfl, rfl⟩

/-- A run that succeeded is followed by the next one, from what it left behind. -/
theorem chain_of_ok (h : run.result = .ok ()) :
    run.chain more = { more run.registry run.installed with
      inner := run.inner ++ (more run.registry run.installed).inner } ∧
    run.chainEvents moreEvents = moreEvents run.registry run.installed := by
  rw [chain, chainEvents, h]
  exact ⟨rfl, rfl⟩

end Run

namespace Registrar

mutual

/-- The entries that a registrar makes. -/
def events (family : String) : Registrar → Registry → Option Registry → List Event
  | .finish _, _, _ => []
  | .edit change next, r, installed => (next r).events family (change r) installed
  | .inspect next, r, installed => .looked installed :: (next installed).events family r installed
  | .startUp builtIn supplied next, r, installed =>
    let startUp := StartUp.of family builtIn supplied installed
    let inner := startUp.eventsWith fun _ =>
      builtIn.events family { family } none ++
        (builtIn.run family { family } none).chainEvents fun r installed =>
          eventsAll family supplied r installed
    inner ++ (next startUp.report.result).events family r startUp.after

/-- The entries that registrars make in order, up to the first that fails. -/
def eventsAll (family : String) : List Registrar → Registry → Option Registry → List Event
  | [], _, _ => []
  | first :: rest, r, installed =>
    first.events family r installed ++
      (first.run family r installed).chainEvents fun r installed =>
        eventsAll family rest r installed

end

end Registrar

/-- The entries of a start-up: those of its registrars, if they run, and its own. -/
def Family.StartUp.events (family : String) (builtIn : Registrar) (supplied : List Registrar)
    (installed : Option Registry) : List Event :=
  (StartUp.of family builtIn supplied installed).eventsWith fun _ =>
    Registrar.eventsAll family (builtIn :: supplied) { family } none

namespace Registrar

variable {family : String}

/-- The registrars of a start-up are run as one list, the built-in one first. -/
theorem startFamily_none (builtIn : Registrar) (supplied : List Registrar) :
    startFamily family builtIn supplied none =
      (runAll family (builtIn :: supplied) { family } none).settle family := by
  rw [startFamily, startWith, runAll]

section StartUp

variable {builtIn : Registrar} {supplied : List Registrar}
  {next : Except Error Registry → Registrar} {r : Registry} {installed : Option Registry}

/-- After a nested start-up, a registrar goes on with what it came to. -/
theorem run_startUp :
    (startUp builtIn supplied next).run family r installed =
      let startUp := StartUp.of family builtIn supplied installed
      let rest := (next startUp.report.result).run family r startUp.after
      { rest with inner := [startUp.report] ++ rest.inner } := by
  rw [run]
  rfl

theorem events_startUp :
    (startUp builtIn supplied next).events family r installed =
      StartUp.events family builtIn supplied installed ++
        (next (StartUp.of family builtIn supplied installed).report.result).events family r
          (StartUp.of family builtIn supplied installed).after := by
  rw [events, StartUp.events, eventsAll]

end StartUp

end Registrar

namespace Family

/-- What holds of the entries and reports of a piece of the log, and of the registries
installed before and after it, because single entries have it and pieces pass it on. -/
structure Kept (family : String)
    (P : Option Registry → List Event → List StartReport → Option Registry → Prop) : Prop where
  /-- Where nothing happens, nothing changes. -/
  nil : ∀ c, P c [] [] c
  /-- A look sees what is installed and leaves it. -/
  looked : ∀ c, P c [.looked c] [] c
  /-- Pieces of the log are put together. -/
  append : ∀ {a b c log more reports moreReports},
    P a log reports b → P b more moreReports c → P a (log ++ more) (reports ++ moreReports) c
  /-- A start-up ends at once where a registry is installed. -/
  refused : ∀ builtIn supplied r, P (some r)
    [.ended (StartUp.of family builtIn supplied (some r))]
    [(StartUp.of family builtIn supplied (some r)).report] (some r)
  /-- Otherwise it ends after its registrars. -/
  ended : ∀ builtIn supplied run,
    Registrar.runAll family (builtIn :: supplied) { family } none = run →
    P none (Registrar.eventsAll family (builtIn :: supplied) { family } none)
      run.inner run.installed →
    P none (StartUp.events family builtIn supplied none)
      [(StartUp.of family builtIn supplied none).report]
      (StartUp.of family builtIn supplied none).after

namespace Kept

variable {family : String}
  {P : Option Registry → List Event → List StartReport → Option Registry → Prop}

/-- It is passed on to what follows a run that succeeded. -/
private theorem chain (h : Kept family P) {a : Option Registry} {log : List Event} {run : Run}
    {more : Registry → Option Registry → Run} {moreEvents : Registry → Option Registry → List Event}
    (hrun : P a log run.inner run.installed)
    (hmore : P run.installed (moreEvents run.registry run.installed)
      (more run.registry run.installed).inner (more run.registry run.installed).installed) :
    P a (log ++ run.chainEvents moreEvents) (run.chain more).inner (run.chain more).installed := by
  cases hresult : run.result with
  | error e =>
    obtain ⟨hchain, hevents⟩ := Run.chain_of_error hresult
    rw [hchain, hevents, List.append_nil]
    exact hrun
  | ok _ =>
    obtain ⟨hchain, hevents⟩ := Run.chain_of_ok hresult
    rw [hchain, hevents]
    exact h.append hrun hmore

/-- It holds of a start-up if it holds of its registrars. -/
private theorem startUp (h : Kept family P) {builtIn : Registrar} {supplied : List Registrar}
    (hrun : P none (Registrar.eventsAll family (builtIn :: supplied) { family } none)
      (Registrar.runAll family (builtIn :: supplied) { family } none).inner
      (Registrar.runAll family (builtIn :: supplied) { family } none).installed)
    (installed : Option Registry) :
    P installed (StartUp.events family builtIn supplied installed)
      [(StartUp.of family builtIn supplied installed).report]
      (StartUp.of family builtIn supplied installed).after := by
  cases installed with
  | none => exact h.ended builtIn supplied _ rfl hrun
  | some r => exact h.refused builtIn supplied r

mutual

/-- It holds of whatever a registrar does. -/
theorem run (h : Kept family P) (g : Registrar) (r : Registry) (installed : Option Registry) :
    P installed (g.events family r installed) (g.run family r installed).inner
      (g.run family r installed).installed := by
  match g with
  | .finish result => exact h.nil installed
  | .edit change next =>
    rw [Registrar.events, Registrar.run]
    exact h.run (next r) (change r) installed
  | .inspect next =>
    rw [Registrar.events, Registrar.run]
    exact h.append (h.looked installed) (h.run (next installed) r installed)
  | .startUp builtIn supplied next =>
    rw [Registrar.events_startUp, Registrar.run_startUp]
    refine h.append (h.startUp ?_ installed) (h.run (next _) r _)
    rw [Registrar.eventsAll, Registrar.runAll]
    exact h.chain (h.run builtIn _ _) (h.runAll supplied _ _)

/-- It holds of whatever registrars do in order. -/
theorem runAll (h : Kept family P) (registrars : List Registrar) (r : Registry)
    (installed : Option Registry) :
    P installed (Registrar.eventsAll family registrars r installed)
      (Registrar.runAll family registrars r installed).inner
      (Registrar.runAll family registrars r installed).installed := by
  match registrars with
  | [] => exact h.nil installed
  | first :: rest =>
    rw [Registrar.eventsAll, Registrar.runAll]
    exact h.chain (h.run first r installed) (h.runAll rest _ _)

end

/-- It holds of every start-up. -/
theorem events (h : Kept family P) (builtIn : Registrar) (supplied : List Registrar)
    (installed : Option Registry) :
    P installed (StartUp.events family builtIn supplied installed)
      [(StartUp.of family builtIn supplied installed).report]
      (StartUp.of family builtIn supplied installed).after :=
  h.startUp (h.runAll (builtIn :: supplied) _ _) installed

end Kept

/-- An operation on a family. What the built-in registrar does may differ between start-ups. -/
inductive Operation where
  | startUp (builtIn : Registrar) (supplied : List Registrar)
  | read (read : Read)

/-- What operations on a family come to. -/
structure History where
  /-- What happened, in order. -/
  log : List Event
  /-- The reports of the start-ups that were operations themselves. -/
  reports : List StartReport
  /-- The family afterwards. -/
  family : Family

/-- What one operation comes to. -/
def perform (f : Family) : Operation → History
  | .startUp builtIn supplied =>
    let (report, g) := { f with builtIn }.start supplied
    ⟨StartUp.events f.name builtIn supplied f.installed, [report], g⟩
  | .read read => ⟨[.answered read (read.answer f)], [], f⟩

/-- What operations come to one after the other. -/
def performAll (f : Family) : List Operation → History
  | [] => ⟨[], [], f⟩
  | operation :: rest =>
    let first := f.perform operation
    let more := first.family.performAll rest
    ⟨first.log ++ more.log, first.reports ++ more.reports, more.family⟩

theorem name_perform (f : Family) (operation : Operation) :
    (f.perform operation).family.name = f.name := by
  cases operation <;> rfl

/-- What pieces of the log pass on holds of every history, if answers have it too. -/
theorem kept_performAll {family : String}
    {P : Option Registry → List Event → List StartReport → Option Registry → Prop}
    (h : Kept family P) (answered : ∀ read c, P c [.answered read (read.expected family c)] [] c)
    (f : Family) (hname : f.name = family) (operations : List Operation) :
    P f.installed (f.performAll operations).log (f.performAll operations).reports
      (f.performAll operations).family.installed := by
  induction operations generalizing f with
  | nil => exact h.nil f.installed
  | cons operation rest ih =>
    have hrest := ih (f.perform operation).family ((f.name_perform operation).trans hname)
    refine h.append ?_ hrest
    subst hname
    cases operation with
    | startUp builtIn supplied => exact h.events builtIn supplied f.installed
    | read read =>
      have hanswer := answered read f.installed
      rw [← read.answer_eq f] at hanswer
      exact hanswer

end Family

end ComponentKinds
