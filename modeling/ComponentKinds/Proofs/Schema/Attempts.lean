import ComponentKinds.Proofs.Schema.WellFormed
import Mathlib.Data.List.Induction

/-!
# Which attempts a schema accepts

An attribute is refused because its name is taken or because its default does not fit, and
the first reason is reported before the second. Of a list of attempts a schema therefore
keeps, for every name, the first whose default fits; an attempt that is refused does not
reserve its name.
-/

namespace ComponentKinds

namespace Schema

/-- The errors for an attribute that a schema does not accept. -/
inductive Refusal (s : Schema) (a : Attribute) : Error → Prop
  | duplicate {b : Attribute} (declared : b ∈ s.attributes) (name_eq : b.name = a.name) :
      Refusal s a (.schema s.name (.duplicateAttribute a.name))
  | mismatch {v : Value} (undeclared : ∀ b ∈ s.attributes, b.name ≠ a.name)
      (default_eq : a.default? = some v) (kind_ne : v.kind ≠ a.kind) :
      Refusal s a (.schema s.name (.wrongDefault a.name a.kind v.kind))

/-- An attribute is not added exactly if the schema refuses it, with the error reported. -/
theorem add_eq_error_iff {s : Schema} {a : Attribute} {e : Error} :
    s.add a = .error e ↔ s.Refusal a e := by
  constructor
  · intro h
    cases hfind : s.attribute? a.name with
    | some b =>
      have hdeclared : b ∈ s.attributes := List.mem_of_find?_eq_some hfind
      have hname : b.name = a.name := by simpa using List.find?_some hfind
      simp only [add, fault?, hfind, Option.isSome_some, ite_true] at h
      cases h
      exact .duplicate hdeclared hname
    | none =>
      have hnew := attribute?_eq_none_iff.mp hfind
      cases hdefault : a.default? with
      | none => simp [add, fault?, hfind, hdefault] at h
      | some v =>
        by_cases hkind : v.kind = a.kind
        · simp [add, fault?, hfind, hdefault, hkind] at h
        · simp only [add, fault?, hfind, hdefault, hkind, Option.isSome_none,
            Bool.false_eq_true, ite_false] at h
          cases h
          exact .mismatch hnew hdefault hkind
  · intro h
    cases h with
    | @duplicate b declared name_eq =>
      have hfind : (s.attribute? a.name).isSome = true := by
        rw [Option.isSome_iff_ne_none]
        intro hnone
        exact attribute?_eq_none_iff.mp hnone b declared name_eq
      simp only [add, fault?, hfind, ite_true]
    | mismatch undeclared default_eq kind_ne =>
      have hfind := attribute?_eq_none_iff.mpr undeclared
      simp [add, fault?, hfind, default_eq, kind_ne]

end Schema

namespace Attribute

/-- The default fits, and no earlier attempt of the name had a default that fits. -/
def FirstFit (earlier : List Attribute) (a : Attribute) : Prop :=
  a.DefaultFits ∧ ∀ b ∈ earlier, b.name = a.name → ¬b.DefaultFits

instance (earlier : List Attribute) (a : Attribute) : Decidable (FirstFit earlier a) :=
  inferInstanceAs (Decidable (_ ∧ _))

/-- Of attempts that follow earlier ones, those that are the first of their name to fit. -/
def firstFits (earlier : List Attribute) : List Attribute → List Attribute
  | [] => []
  | a :: rest =>
    if a.FirstFit earlier then a :: firstFits (earlier ++ [a]) rest
    else firstFits (earlier ++ [a]) rest

/-- One more attempt is added at the end if it is the first of its name to fit. -/
theorem firstFits_snoc (earlier attempts : List Attribute) (a : Attribute) :
    firstFits earlier (attempts ++ [a]) =
      firstFits earlier attempts ++ if a.FirstFit (earlier ++ attempts) then [a] else [] := by
  induction attempts generalizing earlier with
  | nil => simp [firstFits]
  | cons b rest ih =>
    have hrest := ih (earlier ++ [b])
    rw [List.append_assoc, List.singleton_append] at hrest
    simp only [List.cons_append, firstFits, hrest]
    split <;> rfl

/-- A name is taken exactly if some attempt of the name had a default that fits. -/
theorem exists_mem_firstFits_iff {attempts : List Attribute} {name : String} :
    (∃ b ∈ firstFits [] attempts, b.name = name) ↔
      ∃ b ∈ attempts, b.name = name ∧ b.DefaultFits := by
  induction attempts using List.reverseRecOn with
  | nil => simp [firstFits]
  | append_singleton attempts a ih =>
    rw [firstFits_snoc, List.nil_append]
    by_cases hfirst : a.FirstFit attempts
    · rw [if_pos hfirst]
      simp only [List.mem_append, List.mem_singleton, or_and_right, exists_or, ih,
        exists_eq_left, hfirst.1, and_true]
    · rw [if_neg hfirst, List.append_nil, ih]
      constructor
      · rintro ⟨b, hb, hname⟩
        exact ⟨b, List.mem_append_left _ hb, hname⟩
      · rintro ⟨b, hb, hname, hfits⟩
        rcases List.mem_append.mp hb with hb | hb
        · exact ⟨b, hb, hname, hfits⟩
        · cases List.mem_singleton.mp hb
          have hearlier : ∃ c ∈ attempts, c.name = a.name ∧ c.DefaultFits := by
            simpa [FirstFit, hfits] using hfirst
          obtain ⟨c, hc, hsame, hcfits⟩ := hearlier
          exact ⟨c, hc, hsame.trans hname, hcfits⟩

/-- The first fits of earlier attempts leave room for an attribute exactly if it is the next
first fit. -/
theorem firstFit_iff {attempts : List Attribute} {a : Attribute} :
    a.FirstFit attempts ↔ (∀ b ∈ firstFits [] attempts, b.name ≠ a.name) ∧ a.DefaultFits := by
  have htaken := @exists_mem_firstFits_iff attempts a.name
  constructor
  · rintro ⟨hfits, hfirst⟩
    refine ⟨fun b hb hname => ?_, hfits⟩
    obtain ⟨c, hc, hsame, hcfits⟩ := htaken.mp ⟨b, hb, hname⟩
    exact hfirst c hc hsame hcfits
  · rintro ⟨hnew, hfits⟩
    refine ⟨hfits, fun b hb hname hbfits => ?_⟩
    obtain ⟨c, hc, hsame⟩ := htaken.mpr ⟨b, hb, hname, hbfits⟩
    exact hnew c hc hsame

end Attribute

/-- A schema of the first fits of earlier attempts accepts the next one that is, and keeps it
at the end. -/
theorem Schema.add_firstFits {kind : String} {attempts : List Attribute} {a : Attribute}
    {t : Schema} : Schema.add ⟨kind, Attribute.firstFits [] attempts⟩ a = .ok t ↔
      a.FirstFit attempts ∧ ⟨kind, Attribute.firstFits [] (attempts ++ [a])⟩ = t := by
  rw [Schema.add_eq_ok_iff, Attribute.firstFit_iff]
  apply and_congr_right
  intro hfirst
  rw [Attribute.firstFits_snoc, List.nil_append, if_pos (Attribute.firstFit_iff.mpr hfirst)]

end ComponentKinds
