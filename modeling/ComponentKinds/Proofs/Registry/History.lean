import ComponentKinds.Proofs.Registry.Steps
import ComponentKinds.Proofs.Schema.Attempts

/-!
# Registries as the replay of their history

A caller declares a kind and then tries attributes on the declaration, one after the other.
An accepted attempt hands the declaration back, and after a refused one the kind has to be
declared again. A history lists these calls with their answers. The registry that it leads
to, and each answer, follow from the calls alone: the kinds are those declared, by their
first declaration, and a kind has the attempts on it that are the first of their name to fit.
-/

namespace ComponentKinds.Registry

/-- A call of a caller who fills a registry; an attempt is listed with the error that it is
answered by, if it is refused. -/
inductive Event where
  | declare (kind : String)
  | attempt (kind : String) (a : Attribute) (error? : Option Error)

/-- The calls that lead from the empty registry of a family to a registry. What is held is
the kind whose declaration is at hand. -/
inductive History (family : String) : Registry → Option String → List Event → Prop
  | nil : History family { family } none []
  | declare {r : Registry} {held : Option String} {events : List Event}
      (h : History family r held events) (kind : String) :
      History family (r.declare kind) (some kind) (events ++ [.declare kind])
  | accepted {r r' : Registry} {kind : String} {events : List Event} {a : Attribute}
      (h : History family r (some kind) events) (hadd : r.addAttribute kind a = .ok r') :
      History family r' (some kind) (events ++ [.attempt kind a none])
  | refused {r : Registry} {kind : String} {events : List Event} {a : Attribute} {e : Error}
      (h : History family r (some kind) events) (hadd : r.addAttribute kind a = .error e) :
      History family r none (events ++ [.attempt kind a (some e)])

/-- The kinds that are declared, once for every declaration. -/
def declaredIn (events : List Event) : List String :=
  events.filterMap fun
    | .declare kind => some kind
    | .attempt .. => none

/-- The attributes that are tried on a kind. -/
def attemptsOn (kind : String) (events : List Event) : List Attribute :=
  events.filterMap fun
    | .declare _ => none
    | .attempt other a _ => if other = kind then some a else none

section Calls

variable (kind other : String) (a : Attribute) (error? : Option Error) (events : List Event)

@[simp] theorem declaredIn_declare :
    declaredIn (events ++ [.declare kind]) = declaredIn events ++ [kind] := by
  simp [declaredIn]

@[simp] theorem declaredIn_attempt :
    declaredIn (events ++ [.attempt kind a error?]) = declaredIn events := by
  simp [declaredIn]

@[simp] theorem attemptsOn_declare :
    attemptsOn kind (events ++ [.declare other]) = attemptsOn kind events := by
  simp [attemptsOn]

@[simp] theorem attemptsOn_attempt :
    attemptsOn kind (events ++ [.attempt other a error?]) =
      attemptsOn kind events ++ if other = kind then [a] else [] := by
  by_cases h : other = kind <;> simp [attemptsOn, h]

end Calls

/-- The schema that the calls make for a kind. -/
def schemaOf (kind : String) (events : List Event) : Schema :=
  ⟨kind, Attribute.firstFits [] (attemptsOn kind events)⟩

/-- A registry is what the calls make of an empty one. -/
structure Replays (r : Registry) (events : List Event) : Prop where
  /-- Positions and schemas are in step. -/
  valid : r.Valid
  /-- The kinds are listed by their first declaration. -/
  kinds_eq : r.kinds = (declaredIn events).eraseDups
  /-- A kind that is declared has the schema that the calls make for it. -/
  schema?_eq : ∀ kind ∈ declaredIn events, r.schema? kind = some (schemaOf kind events)
  /-- Nothing is tried on a kind that is not declared. -/
  attempts_eq : ∀ kind, kind ∉ declaredIn events → attemptsOn kind events = []

/-- The empty registry is what no calls make. -/
theorem replays_nil (family : String) : ({ family } : Registry).Replays [] :=
  ⟨valid_empty family, rfl, nofun, fun _ _ => rfl⟩

/-- A kind has no schema exactly if it is not declared. -/
theorem Replays.mem_kinds_iff {r : Registry} {events : List Event} (h : r.Replays events)
    {kind : String} : kind ∈ r.kinds ↔ kind ∈ declaredIn events := by
  rw [h.kinds_eq, List.mem_eraseDups]

theorem Replays.schema?_eq_none {r : Registry} {events : List Event} (h : r.Replays events)
    {kind : String} (hkind : kind ∉ declaredIn events) : r.schema? kind = none := by
  rw [Option.eq_none_iff_forall_ne_some]
  intro s hs
  exact hkind (h.mem_kinds_iff.mp (h.valid.mem_kinds_iff.mpr ⟨s, hs⟩))

/-- A declaration lists its kind, with an empty schema, unless it is listed already. -/
theorem Replays.declare {r : Registry} {events : List Event} (h : r.Replays events)
    (kind : String) : (r.declare kind).Replays (events ++ [.declare kind]) := by
  refine ⟨h.valid.declare kind, ?_, ?_, ?_⟩
  · rw [h.valid.kinds_declare, declaredIn_declare, List.eraseDups_append, h.kinds_eq]
    by_cases hkind : kind ∈ declaredIn events <;>
      simp [List.removeAll, hkind, List.eraseDups_cons]
  · intro other hother
    rw [h.valid.schema?_declare, schemaOf, attemptsOn_declare]
    by_cases hkind : kind ∈ declaredIn events
    · rw [h.schema?_eq kind hkind, Option.getD_some]
      split
      · next heq => rw [heq, schemaOf]
      · next hne =>
        refine h.schema?_eq other ?_
        simpa [hne] using hother
    · rw [h.schema?_eq_none hkind, Option.getD_none]
      split
      · next heq => rw [heq, h.attempts_eq kind hkind, Attribute.firstFits]
      · next hne =>
        refine h.schema?_eq other ?_
        simpa [hne] using hother
  · intro other hother
    rw [attemptsOn_declare]
    refine h.attempts_eq other fun hmem => hother ?_
    simp [hmem]

/-- An attempt on a declared kind changes no more than the schema of the kind. -/
theorem Replays.attempt {r r' : Registry} {events : List Event} (h : r.Replays events)
    {kind : String} (hkind : kind ∈ declaredIn events) {a : Attribute} {error? : Option Error}
    (hvalid : r'.Valid) (hkinds : r'.kinds = r.kinds)
    (hschemas : ∀ other, r'.schema? other =
      if other = kind then some (schemaOf kind (events ++ [.attempt kind a error?]))
      else r.schema? other) :
    r'.Replays (events ++ [.attempt kind a error?]) := by
  refine ⟨hvalid, ?_, ?_, ?_⟩
  · rw [hkinds, h.kinds_eq, declaredIn_attempt]
  · intro other hother
    rw [declaredIn_attempt] at hother
    rw [hschemas]
    split
    · next heq => rw [heq]
    · next hne =>
      rw [h.schema?_eq other hother, schemaOf, schemaOf, attemptsOn_attempt,
        if_neg (Ne.symm hne), List.append_nil]
  · intro other hother
    rw [declaredIn_attempt] at hother
    have hne : kind ≠ other := by
      rintro rfl
      exact hother hkind
    rw [attemptsOn_attempt, if_neg hne, List.append_nil, h.attempts_eq other hother]

/-- An attempt on a declared kind is accepted exactly if it is the first of its name to fit,
and otherwise the schema that the calls make for the kind says why it is refused. -/
theorem Replays.answer {r : Registry} {events : List Event} (h : r.Replays events)
    {kind : String} (hkind : kind ∈ declaredIn events) (a : Attribute) :
    ((∃ r', r.addAttribute kind a = .ok r') ↔ a.FirstFit (attemptsOn kind events)) ∧
      ∀ e, r.addAttribute kind a = .error e ↔ (schemaOf kind events).Refusal a e := by
  have herror : ∀ e, r.addAttribute kind a = .error e ↔ (schemaOf kind events).add a = .error e :=
    fun e => addAttribute_eq_error_iff (h.schema?_eq kind hkind)
  refine ⟨?_, fun e => (herror e).trans Schema.add_eq_error_iff⟩
  constructor
  · rintro ⟨r', hadd⟩
    obtain ⟨s, t, hs, ht, _⟩ := h.valid.schema?_addAttribute hadd
    rw [h.schema?_eq kind hkind] at hs
    cases hs
    exact (Schema.add_firstFits.mp ht).1
  · intro hfirst
    cases hadd : r.addAttribute kind a with
    | ok r' => exact ⟨r', rfl⟩
    | error e =>
      have hrefused := (herror e).mp hadd
      rw [schemaOf, Schema.add_firstFits.mpr ⟨hfirst, rfl⟩] at hrefused
      cases hrefused

/-- An accepted attempt is a first fit, which its kind keeps at the end. -/
theorem Replays.accepted {r r' : Registry} {events : List Event} (h : r.Replays events)
    {kind : String} (hkind : kind ∈ declaredIn events) {a : Attribute}
    (hadd : r.addAttribute kind a = .ok r') :
    r'.Replays (events ++ [.attempt kind a none]) := by
  obtain ⟨s, t, hs, ht, _, hkinds, hschemas⟩ := h.valid.schema?_addAttribute hadd
  rw [h.schema?_eq kind hkind] at hs
  cases hs
  obtain ⟨_, rfl⟩ := Schema.add_firstFits.mp ht
  refine h.attempt hkind (h.valid.addAttribute hadd) hkinds fun other => ?_
  rw [hschemas, schemaOf, attemptsOn_attempt, if_pos rfl]

/-- A refused attempt is no first fit, so that there is nothing to keep. -/
theorem Replays.refused {r : Registry} {events : List Event} (h : r.Replays events)
    {kind : String} (hkind : kind ∈ declaredIn events) {a : Attribute} {e : Error}
    (hadd : r.addAttribute kind a = .error e) :
    r.Replays (events ++ [.attempt kind a (some e)]) := by
  have hlater : ¬a.FirstFit (attemptsOn kind events) := by
    intro hfirst
    obtain ⟨r', hok⟩ := (h.answer hkind a).1.mpr hfirst
    rw [hadd] at hok
    cases hok
  have hkept : schemaOf kind (events ++ [.attempt kind a (some e)]) = schemaOf kind events := by
    rw [schemaOf, schemaOf, attemptsOn_attempt, if_pos rfl, Attribute.firstFits_snoc,
      List.nil_append, if_neg hlater, List.append_nil]
  refine h.attempt hkind h.valid rfl fun other => ?_
  split
  · next heq => rw [heq, hkept, h.schema?_eq kind hkind]
  · rfl

/-- A history replays its calls, and the kind that is held has been declared. -/
theorem History.replays {family : String} {r : Registry} {held : Option String}
    {events : List Event} (h : History family r held events) :
    r.Replays events ∧ ∀ kind ∈ held, kind ∈ declaredIn events := by
  induction h with
  | nil => exact ⟨replays_nil family, nofun⟩
  | declare _ kind ih => exact ⟨ih.1.declare kind, by simp⟩
  | @accepted _ _ kind _ _ _ hadd ih =>
    have hkind := ih.2 kind rfl
    refine ⟨ih.1.accepted hkind hadd, ?_⟩
    simpa using hkind
  | @refused _ kind _ _ _ _ hadd ih => exact ⟨ih.1.refused (ih.2 kind rfl) hadd, nofun⟩

/-- An entry of a list that is longer by one is an entry from before or the last one. -/
private theorem snoc_eq_append_cons {α : Type} {front before after : List α} {last x : α}
    (h : front ++ [last] = before ++ x :: after) :
    (∃ rest, front = before ++ x :: rest) ∨ front = before ∧ last = x := by
  rcases List.eq_nil_or_concat after with rfl | ⟨rest, y, rfl⟩
  · exact Or.inr (by simpa using h)
  · rw [List.concat_eq_append, ← List.cons_append, ← List.append_assoc] at h
    exact Or.inl ⟨rest, List.append_inj_left' h rfl⟩

/-- Every attempt of a history is answered by what was tried on its kind before it. -/
theorem History.answers {family : String} {r : Registry} {held : Option String}
    {events : List Event} (h : History family r held events) {before after : List Event}
    {kind : String} {a : Attribute} {error? : Option Error}
    (hsplit : events = before ++ .attempt kind a error? :: after) :
    (error? = none ↔ a.FirstFit (attemptsOn kind before)) ∧
      ∀ e, error? = some e ↔ (schemaOf kind before).Refusal a e := by
  induction h generalizing after with
  | nil => simp at hsplit
  | declare _ _ ih =>
    rcases snoc_eq_append_cons hsplit with ⟨rest, hfront⟩ | ⟨_, hlast⟩
    · exact ih hfront
    · cases hlast
  | accepted h hadd ih =>
    rcases snoc_eq_append_cons hsplit with ⟨rest, hfront⟩ | ⟨rfl, hlast⟩
    · exact ih hfront
    · cases hlast
      obtain ⟨hreplays, hheld⟩ := h.replays
      obtain ⟨hok, herror⟩ := hreplays.answer (hheld kind rfl) a
      refine ⟨iff_of_true rfl (hok.mp ⟨_, hadd⟩), fun e => ?_⟩
      rw [← herror, hadd]
      exact ⟨nofun, nofun⟩
  | refused h hadd ih =>
    rcases snoc_eq_append_cons hsplit with ⟨rest, hfront⟩ | ⟨rfl, hlast⟩
    · exact ih hfront
    · cases hlast
      obtain ⟨hreplays, hheld⟩ := h.replays
      obtain ⟨hok, herror⟩ := hreplays.answer (hheld kind rfl) a
      refine ⟨?_, fun e => ?_⟩
      · rw [← hok, hadd]
        simp
      · rw [← herror, hadd, Option.some.injEq, Except.error.injEq]

/-- The attributes of a block are tried up to the first that is refused. -/
private theorem History.addAttributes {family : String} {r : Registry} {kind : String}
    {events : List Event} (h : History family r (some kind) events) (attributes : List Attribute) :
    ∃ held events', History family (r.addAttributes kind attributes).registry held events' := by
  induction attributes generalizing r events with
  | nil => exact ⟨_, _, h⟩
  | cons a rest ih =>
    rw [Registry.addAttributes]
    cases hadd : r.addAttribute kind a with
    | ok r' => exact ih (h.accepted hadd)
    | error e => exact ⟨_, _, h.refused hadd⟩

/-- The registries that blocks of declarations reach are those that histories lead to. -/
theorem reachable_iff_history {r : Registry} :
    r.Reachable ↔ ∃ family held events, History family r held events := by
  constructor
  · rintro ⟨family, hgrows⟩
    refine ⟨family, ?_⟩
    induction hgrows with
    | refl => exact ⟨_, _, .nil⟩
    | register block _ ih =>
      obtain ⟨_, _, h⟩ := ih
      exact (h.declare block.kind).addAttributes block.attributes
  · rintro ⟨family, held, events, h⟩
    refine ⟨family, ?_⟩
    induction h with
    | nil => exact .refl
    | declare _ kind ih => exact .register { kind } ih
    | @accepted r r' kind events a h hadd ih =>
      obtain ⟨hreplays, hheld⟩ := h.replays
      have hkind := hreplays.mem_kinds_iff.mpr (hheld kind rfl)
      have hregister : (r.register ⟨kind, [a]⟩).registry = r' := by
        simp only [register, hreplays.valid.declare_of_mem hkind, Registry.addAttributes, hadd]
      rw [← hregister]
      exact .register ⟨kind, [a]⟩ ih
    | refused _ _ ih => exact ih

/-- The listed attributes of a kind are those of its schema. -/
theorem options_of_schema? {r : Registry} {kind : String} {s : Schema}
    (hs : r.schema? kind = some s) :
    r.options kind = .ok (s.attributes.map fun a => (a.name, a.kind.typeKey)) := by
  simp only [options, lookup, hs]
  rfl

/-- A history determines its registry and its answers by the calls alone. The kinds are those
declared, by their first declaration; each has the attempts on it that are the first of their
name to fit, in their order, and these attempts are the accepted ones. Any other is answered
by the name that is taken, or else by the kind of the default. Two histories with the same
attempts on a kind agree on it, whatever they do to other kinds. -/
theorem History.follows_calls {family : String} {r : Registry} {held : Option String}
    {events : List Event} (h : History family r held events) :
    r.kinds = (declaredIn events).eraseDups ∧
    (∀ kind ∈ declaredIn events,
      r.schema? kind = some ⟨kind, Attribute.firstFits [] (attemptsOn kind events)⟩ ∧
      r.options kind = .ok ((Attribute.firstFits [] (attemptsOn kind events)).map
        fun a => (a.name, a.kind.typeKey))) ∧
    (∀ kind, kind ∉ declaredIn events → r.schema? kind = none) ∧
    (∀ before kind a error? after, events = before ++ .attempt kind a error? :: after →
      (error? = none ↔ a.FirstFit (attemptsOn kind before)) ∧
      ∀ e, error? = some e ↔
        Schema.Refusal ⟨kind, Attribute.firstFits [] (attemptsOn kind before)⟩ a e) ∧
    ∀ {r' : Registry} {held' : Option String} {events' : List Event},
      History family r' held' events' → ∀ kind ∈ declaredIn events, kind ∈ declaredIn events' →
      attemptsOn kind events' = attemptsOn kind events →
      r'.schema? kind = r.schema? kind ∧ r'.options kind = r.options kind ∧
        ∀ a e, r'.addAttribute kind a = .error e ↔ r.addAttribute kind a = .error e := by
  have hreplays := h.replays.1
  refine ⟨hreplays.kinds_eq, ?_, fun kind hkind => hreplays.schema?_eq_none hkind,
    fun before kind a error? after => h.answers, ?_⟩
  · intro kind hkind
    have hs := hreplays.schema?_eq kind hkind
    exact ⟨hs, options_of_schema? hs⟩
  · intro r' held' events' h' kind hkind hkind' hsame
    have hs := hreplays.schema?_eq kind hkind
    have hs' : r'.schema? kind = some (schemaOf kind events) := by
      rw [h'.replays.1.schema?_eq kind hkind', schemaOf, hsame, schemaOf]
    refine ⟨hs'.trans hs.symm, ?_, fun a e => ?_⟩
    · rw [options_of_schema? hs', options_of_schema? hs]
    · rw [addAttribute_eq_error_iff hs', addAttribute_eq_error_iff hs]

/-- A refused attempt does not reserve its name, also for a kind that is declared again. -/
theorem History.follows_calls_reopened :
    let r := ((({ family := "executor" } : Registry).declare "k").declare "j").register
      ⟨"k", [⟨"a", .bool, none⟩]⟩
    let wrong : SchemaFault := .wrongDefault "a" .int .bool
    let events : List Event := [.declare "k",
      .attempt "k" ⟨"a", .int, some (.bool true)⟩ (some (.schema "k" wrong)),
      .declare "j", .declare "k", .attempt "k" ⟨"a", .bool, none⟩ none,
      .attempt "k" ⟨"a", .int, none⟩ (some (.schema "k" (.duplicateAttribute "a")))]
    History "executor" r.registry none events ∧ r.registry.kinds = ["k", "j"] ∧
      r.registry.schema? "k" = some ⟨"k", [⟨"a", .bool, none⟩]⟩ := by
  intro r wrong events
  have hrefused : History "executor" (({ family := "executor" } : Registry).declare "k") none
      (events.take 2) := .refused (.declare .nil "k") (by decide)
  have haccepted : History "executor" r.registry (some "k") (events.take 5) :=
    .accepted ((hrefused.declare "j").declare "k") (by decide)
  have h : History "executor" r.registry none events := .refused haccepted (by decide)
  obtain ⟨hkinds, hschemas, _⟩ := h.follows_calls
  exact ⟨h, hkinds.trans (by decide), (hschemas "k" (by decide)).1.trans (by decide)⟩

end ComponentKinds.Registry
