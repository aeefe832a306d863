import ComponentKinds.Proofs.Family.Log

/-!
# How the installed registry evolves

Along the log of a family, nothing is installed until the first start-up succeeds, and what
that has installed stays. Whatever registrars do, the log evolves in this way, and it has
an entry for each start-up that is reported.
-/

namespace ComponentKinds

mutual

/-- The results of a start-up and of those inside it, in the order in which they end. -/
def StartReport.results : StartReport → List (Except Error Registry)
  | .mk result inner => StartReport.resultsAll inner ++ [result]

/-- The results of start-ups one after the other. -/
def StartReport.resultsAll : List StartReport → List (Except Error Registry)
  | [] => []
  | report :: rest => report.results ++ resultsAll rest

end

theorem StartReport.resultsAll_append (reports more : List StartReport) :
    resultsAll (reports ++ more) = resultsAll reports ++ resultsAll more := by
  induction reports with
  | nil => rfl
  | cons report rest ih => simp [resultsAll, ih]

namespace Run

variable {family : String} {run : Run}

/-- A start-up with a failed registrar returns its error and leaves what is installed. -/
theorem settle_of_error {e : Error} (h : run.result = .error e) :
    run.settle family = (.mk (.error e) run.inner, run.installed) := by
  rw [settle, h]

/-- A start-up that finds a registry installed at its end fails and leaves it. -/
theorem settle_of_some {r : Registry} (h : run.result = .ok ())
    (hinstalled : run.installed = some r) :
    run.settle family = (.mk (.error (.alreadyInitialized family)) run.inner, some r) := by
  rw [settle, h, hinstalled]

/-- A start-up that finds none installed at its end installs its own. -/
theorem settle_of_none (h : run.result = .ok ()) (hinstalled : run.installed = none) :
    run.settle family = (.mk (.ok run.registry) run.inner, some run.registry) := by
  rw [settle, h, hinstalled]

end Run

namespace Family

/-- The result of the start-up that ended. -/
def Event.result? : Event → Option (Except Error Registry)
  | .ended startUp => some startUp.report.result
  | _ => none

/-- The results of the start-ups that ended, in order. -/
def results (log : List Event) : List (Except Error Registry) := log.filterMap Event.result?

/-- The registries of the start-ups that succeeded, in order. -/
def wins (log : List Event) : List Registry := (results log).filterMap Except.toOption

@[simp] theorem wins_nil : wins [] = [] := rfl

theorem wins_failed {startUp : StartUp} {e : Error} (h : startUp.report.result = .error e)
    (log : List Event) : wins (.ended startUp :: log) = wins log := by
  have hresult : (Event.ended startUp).result? = some (.error e) := congrArg some h
  rw [wins, results, List.filterMap_cons_some hresult, List.filterMap_cons_none rfl]
  rfl

theorem wins_won {startUp : StartUp} {r : Registry} (h : startUp.report.result = .ok r)
    (log : List Event) : wins (.ended startUp :: log) = r :: wins log := by
  have hresult : (Event.ended startUp).result? = some (.ok r) := congrArg some h
  have hwin : (Except.ok r : Except Error Registry).toOption = some r := rfl
  rw [wins, results, List.filterMap_cons_some hresult, List.filterMap_cons_some hwin]
  rfl

theorem wins_append (log more : List Event) : wins (log ++ more) = wins log ++ wins more := by
  rw [wins, results, List.filterMap_append, List.filterMap_append]
  rfl

namespace StartUp

variable {family : String} {builtIn : Registrar} {supplied : List Registrar}

/-- A start-up is settled by the run of its registrars on an empty registry. -/
theorem of_none {run : Run}
    (h : Registrar.runAll family (builtIn :: supplied) { family } none = run) :
    StartUp.of family builtIn supplied none =
      ⟨builtIn, supplied, none, (run.settle family).1, (run.settle family).2⟩ := by
  subst h
  rw [StartUp.of, Registrar.startFamily_none]

theorem events_none :
    StartUp.events family builtIn supplied none =
      Registrar.eventsAll family (builtIn :: supplied) { family } none ++
        [.ended (StartUp.of family builtIn supplied none)] := rfl

end StartUp

/-- How the installed registry evolves along a log. Looks and answers go by what is
installed, a start-up that fails leaves it, and one that succeeds finds none. -/
inductive Evolves (family : String) : Option Registry → List Event → Option Registry → Prop
  | nil (c : Option Registry) : Evolves family c [] c
  | looked {c d : Option Registry} {log : List Event} (h : Evolves family c log d) :
      Evolves family c (.looked c :: log) d
  | answered {c d : Option Registry} {log : List Event} (read : Read)
      (h : Evolves family c log d) :
      Evolves family c (.answered read (read.expected family c) :: log) d
  | failed {startUp : StartUp} {e : Error} {c d : Option Registry} {log : List Event}
      (hresult : startUp.report.result = .error e) (hafter : startUp.after = c)
      (h : Evolves family c log d) : Evolves family c (.ended startUp :: log) d
  | won {startUp : StartUp} {r : Registry} {d : Option Registry} {log : List Event}
      (hresult : startUp.report.result = .ok r) (hafter : startUp.after = some r)
      (h : Evolves family (some r) log d) : Evolves family none (.ended startUp :: log) d

namespace Evolves

variable {family : String} {a b c : Option Registry} {log more : List Event}

/-- Pieces of a log evolve one after the other. -/
theorem append (h : Evolves family a log b) (hmore : Evolves family b more c) :
    Evolves family a (log ++ more) c := by
  induction h with
  | nil => exact hmore
  | looked _ ih => exact .looked (ih hmore)
  | answered read _ ih => exact .answered read (ih hmore)
  | failed hresult hafter _ ih => exact .failed hresult hafter (ih hmore)
  | won hresult hafter _ ih => exact .won hresult hafter (ih hmore)

/-- A log evolves as its pieces do. -/
theorem of_append (h : Evolves family a (log ++ more) c) :
    ∃ b, Evolves family a log b ∧ Evolves family b more c := by
  induction log generalizing a with
  | nil => exact ⟨a, .nil a, h⟩
  | cons event log ih =>
    cases h with
    | looked h =>
      obtain ⟨b, hlog, hmore⟩ := ih h
      exact ⟨b, .looked hlog, hmore⟩
    | answered read h =>
      obtain ⟨b, hlog, hmore⟩ := ih h
      exact ⟨b, .answered read hlog, hmore⟩
    | failed hresult hafter h =>
      obtain ⟨b, hlog, hmore⟩ := ih h
      exact ⟨b, .failed hresult hafter hlog, hmore⟩
    | won hresult hafter h =>
      obtain ⟨b, hlog, hmore⟩ := ih h
      exact ⟨b, .won hresult hafter hlog, hmore⟩

/-- One registry is installed or won at most. -/
theorem length_le_one (h : Evolves family a log b) : a.toList.length + (wins log).length ≤ 1 := by
  induction h with
  | nil c => cases c <;> simp
  | looked _ ih => exact ih
  | answered read _ ih => exact ih
  | failed hresult _ _ ih => simpa [wins_failed hresult] using ih
  | won hresult _ _ ih =>
    rw [wins_won hresult]
    simp only [Option.toList_some, Option.toList_none, List.length_cons, List.length_nil] at ih ⊢
    omega

/-- The registry that was installed before stays, or else the one that is won. -/
theorem installed_eq (h : Evolves family a log b) : b = a.or (wins log).head? := by
  induction h with
  | nil c => simp
  | looked _ ih => exact ih
  | answered read _ ih => exact ih
  | failed hresult _ _ ih => simpa [wins_failed hresult] using ih
  | won hresult _ _ ih => simpa [wins_won hresult] using ih

/-- After a start-up has ended, what it left is installed. -/
theorem after_eq {startUp : StartUp} (h : Evolves family a (log ++ [.ended startUp]) b) :
    startUp.after = b := by
  obtain ⟨c, _, hlast⟩ := h.of_append
  cases hlast with
  | failed _ hafter h =>
    cases h
    exact hafter
  | won _ hafter h =>
    cases h
    exact hafter

/-- Where nothing is installed after a log, nothing was before. -/
theorem eq_none (h : Evolves family a log none) : a = none :=
  (Option.or_eq_none_iff.mp h.installed_eq.symm).1

end Evolves

/-- Registrars keep to the evolution of the installed registry. -/
theorem kept_evolves (family : String) :
    Kept family fun a log _ b => Evolves family a log b where
  nil := .nil
  looked c := .looked (.nil c)
  append := .append
  refused _ _ r := .failed rfl rfl (.nil _)
  ended builtIn supplied run hrun h := by
    rw [StartUp.events_none, StartUp.of_none hrun]
    apply h.append
    cases hresult : run.result with
    | error e =>
      rw [Run.settle_of_error hresult]
      exact .failed rfl rfl (.nil _)
    | ok _ =>
      cases hinstalled : run.installed with
      | some r =>
        rw [Run.settle_of_some hresult hinstalled]
        exact .failed rfl rfl (.nil _)
      | none =>
        rw [Run.settle_of_none hresult hinstalled]
        exact .won rfl rfl (.nil _)

/-- The start-ups that end are those that are reported. -/
theorem kept_results (family : String) :
    Kept family fun _ log reports _ => results log = StartReport.resultsAll reports where
  nil _ := rfl
  looked _ := rfl
  append h hmore := by
    rw [StartReport.resultsAll_append, ← h, ← hmore]
    exact List.filterMap_append
  refused _ _ _ := rfl
  ended builtIn supplied run hrun h := by
    have hinner : (StartUp.of family builtIn supplied none).report.inner = run.inner := by
      rw [StartUp.of_none hrun, Run.settle]
      split <;> rfl
    have hlog : results (StartUp.events family builtIn supplied none) =
        StartReport.resultsAll run.inner ++
          [(StartUp.of family builtIn supplied none).report.result] := by
      rw [← h]
      exact List.filterMap_append
    rw [hlog, ← hinner]
    cases (StartUp.of family builtIn supplied none).report
    simp [StartReport.resultsAll, StartReport.results, StartReport.inner, StartReport.result]

end Family

end ComponentKinds
