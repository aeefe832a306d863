import ComponentKinds.Proofs.Family.Evolution

/-!
# A family installs one registry

At most one start-up of a family succeeds, nested ones included, and everybody who looks at
the family sees what that start-up has installed, or nothing before it ends. A start-up
that ends is refused, fails with a registrar, is overtaken by another one, or installs what
its own registrars have built from an empty registry. The log and the reports of a history are
those of its operations, in their order.
-/

namespace ComponentKinds

/-- Where registrars fail, one is the first to fail, and none after it is run. -/
theorem Registrar.exists_of_runAll_eq_error {family : String} {registrars : List Registrar}
    {r : Registry} {installed : Option Registry} {e : Error}
    (h : (runAll family registrars r installed).result = .error e) :
    ∃ first failing rest before last, registrars = first ++ failing :: rest ∧
      runAll family first r installed = before ∧ before.result = .ok () ∧
      failing.run family before.registry before.installed = last ∧ last.result = .error e ∧
      runAll family registrars r installed =
        { last with inner := before.inner ++ last.inner } ∧
      eventsAll family registrars r installed = eventsAll family first r installed ++
        failing.events family before.registry before.installed := by
  induction registrars generalizing r installed with
  | nil =>
    rw [runAll] at h
    cases h
  | cons g rest ih =>
    simp only [runAll, eventsAll] at h ⊢
    cases hresult : (g.run family r installed).result with
    | error e' =>
      obtain ⟨hchain, hevents⟩ := Run.chain_of_error hresult
      rw [hchain] at h
      rw [hchain, hevents]
      refine ⟨[], g, rest, _, _, rfl, rfl, rfl, rfl, h, rfl, ?_⟩
      rw [List.append_nil]
      rfl
    | ok _ =>
      obtain ⟨hchain, hevents⟩ := Run.chain_of_ok hresult
      rw [hchain] at h
      rw [hchain, hevents]
      obtain ⟨first, failing, after, before, last, rfl, hbefore, hok, hlast, herror, hrun, hlog⟩ :=
        ih h
      obtain ⟨hchain', hevents'⟩ := Run.chain_of_ok hresult
      refine ⟨g :: first, failing, after, _, last, rfl, rfl, ?_, ?_, herror, ?_, ?_⟩
      · rw [runAll, hchain', hbefore]
        exact hok
      · rw [runAll, hchain', hbefore]
        exact hlast
      · rw [runAll, hchain', hbefore, hrun, List.append_assoc]
      · rw [runAll, hchain', hbefore, eventsAll, hevents', hlog, List.append_assoc]

namespace Family

/-- What a registrar builds while no registry is installed: its own changes are made in
order, and start-ups inside it, all of which fail, change nothing. -/
inductive Builds (family : String) : Registrar → Registry → Registry → Prop
  | finish (r : Registry) : Builds family (.finish (.ok ())) r r
  | edit {change : Registry → Registry} {next : Registry → Registrar} {r s : Registry}
      (h : Builds family (next r) (change r) s) : Builds family (.edit change next) r s
  | inspect {next : Option Registry → Registrar} {r s : Registry}
      (h : Builds family (next none) r s) : Builds family (.inspect next) r s
  | startUp {builtIn : Registrar} {supplied : List Registrar}
      {next : Except Error Registry → Registrar} {r s : Registry} {e : Error}
      (hresult : (StartUp.of family builtIn supplied none).report.result = .error e)
      (hafter : (StartUp.of family builtIn supplied none).after = none)
      (h : Builds family (next (.error e)) r s) :
      Builds family (.startUp builtIn supplied next) r s

/-- What registrars build in order. -/
inductive BuildsAll (family : String) : List Registrar → Registry → Registry → Prop
  | nil (r : Registry) : BuildsAll family [] r r
  | cons {first : Registrar} {rest : List Registrar} {r s t : Registry}
      (hfirst : Builds family first r s) (hrest : BuildsAll family rest s t) :
      BuildsAll family (first :: rest) r t

/-- A start-up after which no registry is installed has failed. -/
theorem StartUp.result_of_after_eq_none {family : String} {builtIn : Registrar}
    {supplied : List Registrar} (h : (StartUp.of family builtIn supplied none).after = none) :
    ∃ e, (StartUp.of family builtIn supplied none).report.result = .error e := by
  have hevolves := (kept_evolves family).events builtIn supplied none
  rw [StartUp.events_none] at hevolves
  obtain ⟨b, _, hlast⟩ := hevolves.of_append
  cases hlast with
  | failed hresult => exact ⟨_, hresult⟩
  | won _ hafter =>
    rw [h] at hafter
    cases hafter

/-- A registrar builds a registry exactly if it succeeds and no registry is installed then. -/
theorem builds_iff {family : String} {g : Registrar} {r s : Registry} :
    Builds family g r s ↔ (g.run family r none).result = .ok () ∧
      (g.run family r none).installed = none ∧ (g.run family r none).registry = s := by
  cases g with
  | finish result =>
    rw [Registrar.run]
    constructor
    · intro h
      cases h
      exact ⟨rfl, rfl, rfl⟩
    · intro h
      obtain ⟨rfl, _, rfl⟩ := h
      exact .finish r
  | edit change next =>
    have ih : Builds family (next r) (change r) s ↔ _ := builds_iff
    rw [Registrar.run, ← ih]
    constructor
    · intro h
      cases h with
      | edit h => exact h
    · exact .edit
  | inspect next =>
    have ih : Builds family (next none) r s ↔ _ := builds_iff
    rw [Registrar.run, ← ih]
    constructor
    · intro h
      cases h with
      | inspect h => exact h
    · exact .inspect
  | startUp builtIn supplied next =>
    have ih : ∀ result, Builds family (next result) r s ↔ _ := fun _ => builds_iff
    simp only [Registrar.run_startUp]
    constructor
    · intro h
      cases h with
      | startUp hresult hafter h =>
        rw [hresult, hafter]
        exact (ih _).mp h
    · intro h
      obtain ⟨hok, hnone, hregistry⟩ := h
      have hrest := (kept_evolves family).run
        (next (StartUp.of family builtIn supplied none).report.result) r
        (StartUp.of family builtIn supplied none).after
      rw [hnone] at hrest
      have hafter := hrest.eq_none
      obtain ⟨e, hresult⟩ := StartUp.result_of_after_eq_none hafter
      rw [hresult, hafter] at hok hnone hregistry
      exact .startUp hresult hafter ((ih _).mpr ⟨hok, hnone, hregistry⟩)

/-- Registrars build a registry in order exactly if all succeed and no registry is
installed then. -/
theorem buildsAll_iff {family : String} {registrars : List Registrar} {r s : Registry} :
    BuildsAll family registrars r s ↔
      (Registrar.runAll family registrars r none).result = .ok () ∧
      (Registrar.runAll family registrars r none).installed = none ∧
      (Registrar.runAll family registrars r none).registry = s := by
  induction registrars generalizing r with
  | nil =>
    rw [Registrar.runAll]
    constructor
    · intro h
      cases h
      exact ⟨rfl, rfl, rfl⟩
    · intro h
      obtain ⟨_, _, rfl⟩ := h
      exact .nil r
  | cons first rest ih =>
    rw [Registrar.runAll, Run.chain]
    cases hresult : (first.run family r none).result with
    | error e =>
      constructor
      · intro h
        cases h with
        | cons hfirst _ =>
          have hok := (builds_iff.mp hfirst).1
          rw [hresult] at hok
          cases hok
      · intro h
        have hok := h.1
        rw [hresult] at hok
        cases hok
    | ok _ =>
      constructor
      · intro h
        cases h with
        | cons hfirst hrest =>
          obtain ⟨_, hnone, rfl⟩ := builds_iff.mp hfirst
          rw [hnone]
          exact ih.mp hrest
      · intro h
        obtain ⟨hok, hnone, hregistry⟩ := h
        have hrest := (kept_evolves family).runAll rest (first.run family r none).registry
          (first.run family r none).installed
        rw [hnone] at hrest
        have hfirst := hrest.eq_none
        rw [hfirst] at hok hnone hregistry
        exact .cons (builds_iff.mpr ⟨hresult, hfirst, rfl⟩) (ih.mpr ⟨hok, hnone, hregistry⟩)

/-- How a start-up ends, and the entries that its registrars have made before. -/
inductive StartUp.Outcome (family : String) : List Event → StartUp → Prop
  /-- A registry is installed already. No registrar is run. -/
  | refused (builtIn : Registrar) (supplied : List Registrar) (r : Registry) :
      Outcome family []
        ⟨builtIn, supplied, some r, .mk (.error (.alreadyInitialized family)) [], some r⟩
  /-- A registrar fails. Its error is that of the start-up, none after it is run, and what
  it leaves installed, if anything, stays. -/
  | failed {builtIn : Registrar} {supplied first rest : List Registrar} {failing : Registrar}
      {before last : Run} {e : Error} (hregistrars : builtIn :: supplied = first ++ failing :: rest)
      (hbefore : Registrar.runAll family first { family } none = before)
      (hok : before.result = .ok ())
      (hlast : failing.run family before.registry before.installed = last)
      (herror : last.result = .error e) :
      Outcome family
        (Registrar.eventsAll family first { family } none ++
          failing.events family before.registry before.installed)
        ⟨builtIn, supplied, none, .mk (.error e) (before.inner ++ last.inner), last.installed⟩
  /-- All registrars succeed, but a start-up inside them has installed its registry. -/
  | overtaken {builtIn : Registrar} {supplied : List Registrar} {run : Run} {r : Registry}
      (hrun : Registrar.runAll family (builtIn :: supplied) { family } none = run)
      (hok : run.result = .ok ()) (hinstalled : run.installed = some r) :
      Outcome family (Registrar.eventsAll family (builtIn :: supplied) { family } none)
        ⟨builtIn, supplied, none, .mk (.error (.alreadyInitialized family)) run.inner, some r⟩
  /-- The registrars build a registry from an empty one, and it is installed. -/
  | won {builtIn : Registrar} {supplied : List Registrar} {run : Run} {r : Registry}
      (hrun : Registrar.runAll family (builtIn :: supplied) { family } none = run)
      (hbuilds : BuildsAll family (builtIn :: supplied) { family } r) :
      Outcome family (Registrar.eventsAll family (builtIn :: supplied) { family } none)
        ⟨builtIn, supplied, none, .mk (.ok r) run.inner, some r⟩

/-- Every start-up that finds no registry installed ends in one of these ways. -/
theorem StartUp.outcome_none (family : String) (builtIn : Registrar) (supplied : List Registrar) :
    StartUp.Outcome family (Registrar.eventsAll family (builtIn :: supplied) { family } none)
      (StartUp.of family builtIn supplied none) := by
  have hsettle : StartUp.of family builtIn supplied none = _ := StartUp.of_none rfl
  generalize hrun : Registrar.runAll family (builtIn :: supplied) { family } none = run at hsettle
  cases hresult : run.result with
  | error e =>
    obtain ⟨first, failing, rest, before, last, hregistrars, hbefore, hok, hlast, herror, hlast',
      hlog⟩ := Registrar.exists_of_runAll_eq_error (hrun ▸ hresult)
    rw [hsettle, Run.settle_of_error hresult, hlog, ← hrun, hlast']
    exact .failed hregistrars hbefore hok hlast herror
  | ok _ =>
    cases hinstalled : run.installed with
    | some r =>
      rw [hsettle, Run.settle_of_some hresult hinstalled]
      exact .overtaken hrun hresult hinstalled
    | none =>
      rw [hsettle, Run.settle_of_none hresult hinstalled]
      refine .won hrun (buildsAll_iff.mpr ?_)
      rw [hrun]
      exact ⟨hresult, hinstalled, rfl⟩

/-- An entry of two pieces put together is one of the first or of the second. -/
private theorem append_eq_append_cons {log more before after : List Event} {event : Event}
    (h : log ++ more = before ++ event :: after) :
    (∃ rest, log = before ++ event :: rest) ∨
      ∃ rest, before = log ++ rest ∧ more = rest ++ event :: after := by
  rcases List.append_eq_append_iff.mp h with ⟨rest, hbefore, hmore⟩ | ⟨rest, hlog, hmore⟩
  · exact Or.inr ⟨rest, hbefore, hmore⟩
  · cases rest with
    | nil => exact Or.inr ⟨[], by simpa using hlog.symm, by simpa using hmore.symm⟩
    | cons first rest =>
      obtain ⟨rfl, _⟩ := List.cons.inj hmore
      exact Or.inl ⟨rest, hlog⟩

/-- The entry of a start-up stands behind those of its registrars, before which it has
found what was installed first. -/
def Recorded (family : String) (a : Option Registry) (log : List Event) : Prop :=
  ∀ before startUp after, log = before ++ .ended startUp :: after →
    ∃ outer inner, before = outer ++ inner ∧
      startUp.before = a.or (wins outer).head? ∧ startUp.Outcome family inner

namespace Recorded

variable {family : String} {a b : Option Registry} {log more : List Event}

/-- Where no start-up ends, none has to be recorded. -/
theorem of_not_mem (h : ∀ startUp, .ended startUp ∉ log) : Recorded family a log := by
  intro before startUp after hlog
  apply absurd _ (h startUp)
  rw [hlog]
  exact List.mem_append_right _ List.mem_cons_self

/-- Pieces of a log in which start-ups are recorded may be put together. -/
theorem append (h : Recorded family a log) (hlog : Evolves family a log b)
    (hmore : Recorded family b more) : Recorded family a (log ++ more) := by
  intro before startUp after heq
  rcases append_eq_append_cons heq with ⟨rest, hfirst⟩ | ⟨rest, rfl, hsecond⟩
  · exact h before startUp rest hfirst
  · obtain ⟨outer, inner, rfl, hbefore, houtcome⟩ := hmore rest startUp after hsecond
    refine ⟨log ++ outer, inner, (List.append_assoc _ _ _).symm, ?_, houtcome⟩
    rw [hbefore, hlog.installed_eq, wins_append, List.head?_append, Option.or_assoc]

/-- The entry of a start-up may follow those of its registrars. -/
theorem ended {startUp : StartUp} (h : Recorded family a log) (hbefore : startUp.before = a)
    (houtcome : startUp.Outcome family log) : Recorded family a (log ++ [.ended startUp]) := by
  intro before other after heq
  rcases append_eq_append_cons heq with ⟨rest, hfirst⟩ | ⟨rest, rfl, hlast⟩
  · exact h before other rest hfirst
  · cases rest with
    | nil =>
      cases hlast
      exact ⟨[], log, (List.append_nil log), by simpa using hbefore, houtcome⟩
    | cons first rest => simp at hlast

end Recorded

/-- The start-ups that registrars make are recorded. -/
theorem kept_recorded (family : String) :
    Kept family fun a log _ b => Evolves family a log b ∧ Recorded family a log where
  nil c := ⟨.nil c, .of_not_mem (by simp)⟩
  looked c := ⟨.looked (.nil c), .of_not_mem (by simp)⟩
  append h hmore := ⟨h.1.append hmore.1, h.2.append h.1 hmore.2⟩
  refused builtIn supplied r := by
    refine ⟨(kept_evolves family).refused builtIn supplied r, ?_⟩
    have hempty : Recorded family (some r) [] := .of_not_mem (by simp)
    exact hempty.ended rfl (.refused builtIn supplied r)
  ended builtIn supplied run hrun h := by
    refine ⟨(kept_evolves family).ended builtIn supplied run hrun h.1, ?_⟩
    rw [StartUp.events_none]
    exact h.2.ended rfl (StartUp.outcome_none family builtIn supplied)

/-- Registrars ask no questions as operations do. -/
theorem kept_unanswered (family : String) :
    Kept family fun _ log _ _ => ∀ read answer, Event.answered read answer ∉ log where
  nil _ _ _ := List.not_mem_nil
  looked _ := by simp
  append h hmore read answer hmem :=
    (List.mem_append.mp hmem).elim (h read answer) (hmore read answer)
  refused _ _ _ := by simp [StartUp.of]
  ended builtIn supplied run hrun h := by
    rw [StartUp.events_none]
    simpa using h

/-- A start-up leaves the entries of its registrars, which answer no questions, and its own. -/
theorem StartUp.events_eq_append (family : String) (builtIn : Registrar)
    (supplied : List Registrar) (installed : Option Registry) :
    ∃ inner, StartUp.events family builtIn supplied installed =
        inner ++ [.ended (StartUp.of family builtIn supplied installed)] ∧
      (StartUp.of family builtIn supplied installed).Outcome family inner ∧
      ∀ read answer, Event.answered read answer ∉ inner := by
  cases installed with
  | some r => exact ⟨[], rfl, .refused builtIn supplied r, fun _ _ => List.not_mem_nil⟩
  | none =>
    exact ⟨_, StartUp.events_none, StartUp.outcome_none family builtIn supplied,
      (kept_unanswered family).runAll (builtIn :: supplied) { family } none⟩

/-- Operations with the entries that they leave and the reports that they return, one after the
other. -/
inductive Performed (family : String) :
    List Operation → List Event → List StartReport → Prop
  | nil : Performed family [] [] []
  /-- A start-up leaves the entries of its registrars and its own, and returns its report. -/
  | startUp {startUp : StartUp} {inner log : List Event} {operations : List Operation}
      {reports : List StartReport} (hinner : ∀ read answer, .answered read answer ∉ inner)
      (houtcome : startUp.Outcome family inner) (h : Performed family operations log reports) :
      Performed family (.startUp startUp.builtIn startUp.supplied :: operations)
        (inner ++ .ended startUp :: log) (startUp.report :: reports)
  /-- A question leaves its answer. -/
  | read {log : List Event} {operations : List Operation} {reports : List StartReport}
      (read : Read) (answer : Answer) (h : Performed family operations log reports) :
      Performed family (.read read :: operations) (.answered read answer :: log) reports

/-- Every history is that of its operations. -/
theorem performed_performAll (f : Family) (operations : List Operation) :
    Performed f.name operations (f.performAll operations).log
      (f.performAll operations).reports := by
  induction operations generalizing f with
  | nil => exact .nil
  | cons operation rest ih =>
    have hrest := ih (f.perform operation).family
    rw [name_perform] at hrest
    cases operation with
    | startUp builtIn supplied =>
      obtain ⟨inner, hlog, houtcome, hinner⟩ :=
        StartUp.events_eq_append f.name builtIn supplied f.installed
      have hall := Performed.startUp hinner houtcome hrest
      rw [List.append_cons, ← hlog] at hall
      exact hall
    | read read => exact .read read (read.answer f) hrest

/-- What is promised of every history of operations on a family in which nothing is installed at
first. -/
structure SingleInstall (family : String) (operations : List Operation) (h : History) : Prop where
  /-- Each operation that is a start-up has its entry and its report, and each question its
  answer, in the order of the operations. -/
  performed : Performed family operations h.log h.reports
  /-- The log has an entry for every start-up, those inside others included. -/
  results_eq : results h.log = StartReport.resultsAll h.reports
  /-- At most one start-up succeeds. -/
  wins_le_one : (wins h.log).length ≤ 1
  /-- Its registry is installed from then on. -/
  installed_eq : h.family.installed = (wins h.log).head?
  /-- A registrar that looks sees the registry of the start-up that has succeeded before. -/
  looked_eq : ∀ before seen after, h.log = before ++ .looked seen :: after →
    seen = (wins before).head?
  /-- A question is answered from that registry, and refused before there is one. -/
  answered_eq : ∀ before read answer after, h.log = before ++ .answered read answer :: after →
    answer = read.expected family (wins before).head?
  /-- A start-up ends in one of four ways behind the entries of its registrars, before which
  it has found the registry of the start-up that had succeeded then. -/
  outcome : ∀ before startUp after, h.log = before ++ .ended startUp :: after →
    startUp.after = (wins (before ++ [.ended startUp])).head? ∧
    ∃ outer inner, before = outer ++ inner ∧ startUp.before = (wins outer).head? ∧
      startUp.Outcome family inner

/-- A family installs at most one registry in every history: the one that the registrars of
the only successful start-up have built. -/
theorem singleInstall_performAll (name : String) (builtIn : Registrar)
    (operations : List Operation) :
    SingleInstall name operations (({ name, builtIn } : Family).performAll operations) := by
  obtain ⟨hevolves, hrecorded⟩ := kept_performAll (kept_recorded name)
    (fun read c => ⟨.answered read (.nil c), .of_not_mem (by simp)⟩)
    { name, builtIn } rfl operations
  refine ⟨performed_performAll { name, builtIn } operations, ?_, ?_, ?_, ?_, ?_, ?_⟩
  · exact kept_performAll (kept_results name) (fun _ _ => rfl) _ rfl operations
  · simpa using hevolves.length_le_one
  · simpa using hevolves.installed_eq
  · intro before seen after hlog
    rw [hlog] at hevolves
    obtain ⟨b, hbefore, hrest⟩ := hevolves.of_append
    cases hrest with
    | looked _ => simpa using hbefore.installed_eq
  · intro before read answer after hlog
    rw [hlog] at hevolves
    obtain ⟨b, hbefore, hrest⟩ := hevolves.of_append
    cases hrest with
    | answered _ _ =>
      rw [hbefore.installed_eq]
      rfl
  · intro before startUp after hlog
    refine ⟨?_, by simpa using hrecorded before startUp after hlog⟩
    rw [hlog, List.append_cons] at hevolves
    obtain ⟨b, hbefore, _⟩ := hevolves.of_append
    rw [hbefore.after_eq, hbefore.installed_eq]
    rfl

/-- A registrar fails behind a change that it has made. In the next start-up, one starts the family
up itself, so that the start-up inside succeeds and the one around it is overtaken. A further one
is refused. -/
theorem singleInstall_performAll_nested :
    let base : Registrar := .ofBlocks [⟨"base", []⟩]
    let failing : Registrar :=
      .edit (·.declare "lost") fun _ => .finish (.error (.unknownKind "f" "x"))
    let nested : Registrar :=
      .startUp base [.ofBlocks [⟨"inner", []⟩]] fun _ => .inspect fun _ => .finish (.ok ())
    let operations : List Operation :=
      [.read .get, .startUp base [failing], .startUp base [nested], .read .kinds, .startUp base []]
    let h := ({ name := "f", builtIn := base } : Family).performAll operations
    let r := (({ family := "f" } : Registry).registerAll [⟨"base", []⟩, ⟨"inner", []⟩]).registry
    SingleInstall "f" operations h ∧ h.family.installed = some r ∧
      h.reports.map (·.result) = [.error (.unknownKind "f" "x"),
        .error (.alreadyInitialized "f"), .error (.alreadyInitialized "f")] ∧
      results h.log = [.error (.unknownKind "f" "x"), .ok r, .error (.alreadyInitialized "f"),
        .error (.alreadyInitialized "f")] ∧
      .answered .get (.registry (.error (.notInitialized "f"))) ∈ h.log ∧
      .looked (some r) ∈ h.log ∧ .answered .kinds (.kinds (.ok ["base", "inner"])) ∈ h.log := by
  intro base failing nested operations h r
  refine ⟨singleInstall_performAll "f" base operations, rfl, rfl, rfl, ?_, ?_, ?_⟩
  · exact List.mem_of_getElem? (i := 0) rfl
  · exact List.mem_of_getElem? (i := 3) rfl
  · exact List.mem_of_getElem? (i := 5) rfl

end Family

end ComponentKinds
