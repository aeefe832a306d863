import ComponentKinds.Config
import ComponentKinds.Proofs.Json.Canonical
import ComponentKinds.Proofs.Value.Denotation
import Mathlib.Data.List.Forall2

/-!
# Configurations of objects

An object is read as a configuration exactly if each of its members denotes a value, and the
configuration then has these values under the same names. Otherwise the fault that is reported
is that of the least name whose tree is no value.
-/

namespace ComponentKinds.Config

/-- The fault of a member that is no attribute value. -/
inductive MemberFault (name : String) (tree : Json) : Fault → Prop
  | member {fault : Value.Fault} (wrong : tree.HasFault fault) :
      MemberFault name tree (.member name fault)

/-- Entries with the names of members and the values that these denote, in the same order. -/
def Denoted (members : List (String × Json)) (entries : List (String × Value)) : Prop :=
  List.Forall₂ (fun member entry => member.1 = entry.1 ∧ member.2.DenotesValue entry.2)
    members entries

variable {members : List (String × Json)}

/-- Entries have the keys of the members that denote them. -/
theorem Denoted.keys_eq {entries : List (String × Value)} (h : Denoted members entries) :
    members.map Prod.fst = entries.map Prod.fst := by
  induction h with
  | nil => rfl
  | cons hhead _ ih => rw [List.map_cons, List.map_cons, hhead.1, ih]

/-- An entry is the value that some member of its name denotes. -/
theorem Denoted.mem_iff {entries : List (String × Value)} (h : Denoted members entries)
    {name : String} {v : Value} :
    (name, v) ∈ entries ↔ ∃ tree, (name, tree) ∈ members ∧ tree.DenotesValue v := by
  induction h with
  | nil => simp
  | @cons member entry members entries hhead _ ih =>
    obtain ⟨other, tree⟩ := member
    obtain ⟨_, w⟩ := entry
    obtain ⟨rfl, hw⟩ := hhead
    simp [ih, or_and_right, exists_or, and_assoc, hw.denotes_iff]

/-- Entries are denoted by members exactly if each of these denotes a value. -/
theorem exists_denoted_iff :
    (∃ entries, Denoted members entries) ↔ ∀ member ∈ members, ∃ v, member.2.DenotesValue v := by
  constructor
  · rintro ⟨entries, h⟩
    induction h with
    | nil => nofun
    | cons hhead _ ih => exact List.forall_mem_cons.mpr ⟨⟨_, hhead.2⟩, ih⟩
  · intro hvalues
    induction members with
    | nil => exact ⟨[], .nil⟩
    | cons member rest ih =>
      obtain ⟨⟨v, hv⟩, hrest⟩ := List.forall_mem_cons.mp hvalues
      obtain ⟨entries, hentries⟩ := ih hrest
      exact ⟨(member.1, v) :: entries, .cons ⟨rfl, hv⟩ hentries⟩

/-- A configuration has no value under the names that no member has. -/
theorem Denoted.get?_eq_none_iff {config : Config} (h : Denoted members config.entries)
    {name : String} : config.get? name = none ↔ ∀ tree, (name, tree) ∉ members := by
  rw [Option.eq_none_iff_forall_ne_some]
  simp only [ne_eq, ← Keyed.mem_entries_iff, h.mem_iff]
  constructor
  · intro hnone tree hmem
    obtain ⟨v, hv⟩ := exists_denoted_iff.mp ⟨_, h⟩ _ hmem
    exact hnone v ⟨tree, hmem, hv⟩
  · rintro hnone v ⟨tree, hmem, _⟩
    exact hnone tree hmem

/-- Members are read exactly if each of them denotes a value. -/
theorem memberValues_eq_ok_iff {entries : List (String × Value)} :
    memberValues members = .ok entries ↔ Denoted members entries := by
  induction members generalizing entries with
  | nil => cases entries <;> simp [memberValues, Denoted]
  | cons member rest ih =>
    obtain ⟨name, tree⟩ := member
    rw [memberValues]
    cases htree : Value.ofJson tree with
    | error fault =>
      have hnone := (Value.ofJson_eq_error_iff.mp htree).not_denotes
      cases entries <;> simp [Denoted, hnone]
    | ok v =>
      have hv := Value.ofJson_eq_ok_iff.mp htree
      simp only [map_eq_ok_iff, ih]
      cases entries with
      | nil => simp [Denoted]
      | cons entry entries =>
        obtain ⟨other, w⟩ := entry
        simp [Denoted, hv.denotes_iff, eq_comm, and_comm, and_assoc]

/-- Ordered members are not read exactly if one has a fault, and that of the least name is
reported: a member that is read leaves the least fault to the rest, and one that is not has it,
since all names behind it are greater. -/
theorem memberValues_eq_error_iff (hsorted : Entries.Sorted members) {fault : Fault} :
    memberValues members = .error fault ↔ Entries.Least MemberFault members fault := by
  induction members with
  | nil => simp [memberValues, Entries.Least]
  | cons member rest ih =>
    obtain ⟨name, tree⟩ := member
    rw [memberValues]
    cases htree : Value.ofJson tree with
    | ok v =>
      have hnot : ∀ fault, ¬MemberFault name tree fault := by
        rintro _ ⟨hfault⟩
        exact hfault.not_denotes v (Value.ofJson_eq_ok_iff.mp htree)
      simp only [map_eq_error_iff, Entries.least_cons_of_not hnot]
      exact ih (Entries.sorted_cons.mp hsorted).2
    | error found =>
      have hfound := Value.ofJson_eq_error_iff.mp htree
      have hunique : ∀ other, MemberFault name tree other → .member name found = other := by
        rintro _ ⟨hother⟩
        rw [hfound.unique hother]
      simp only [hsorted.least_cons_of_fails (.member hfound) hunique, Except.error.injEq]

/-- A canonical tree is read as a configuration exactly if it is an object whose members denote
the entries of the configuration. -/
theorem ofJson_eq_ok_iff {j : Json} (h : j.Canonical) {config : Config} :
    ofJson j = .ok config ↔ ∃ members, j = .obj members ∧ Denoted members config.entries := by
  cases j with
  | obj members =>
    have hsorted := (Json.canonical_obj_iff.mp h).1
    simp only [ofJson, map_eq_ok_iff, memberValues_eq_ok_iff, Json.obj.injEq, exists_eq_left']
    have hmap : ∀ entries, Denoted members entries →
        (Keyed.ofList entries = config ↔ entries = config.entries) := fun entries hdenoted =>
      Keyed.ofList_eq_iff (hsorted.of_keys_eq hdenoted.keys_eq)
    constructor
    · rintro ⟨entries, hdenoted, heq⟩
      rwa [← (hmap entries hdenoted).mp heq]
    · intro hdenoted
      exact ⟨config.entries, hdenoted, (hmap _ hdenoted).mpr rfl⟩
  | _ => simp [ofJson]

/-- A canonical object is read as a configuration exactly if each of its members denotes a
value. -/
theorem exists_ofJson_eq_ok_iff (h : (Json.obj members).Canonical) :
    (∃ config, ofJson (.obj members) = .ok config) ↔
      ∀ member ∈ members, ∃ v, member.2.DenotesValue v := by
  have hsorted := (Json.canonical_obj_iff.mp h).1
  simp only [ofJson_eq_ok_iff h, Json.obj.injEq, exists_eq_left', ← exists_denoted_iff]
  constructor
  · rintro ⟨config, hdenoted⟩
    exact ⟨config.entries, hdenoted⟩
  · rintro ⟨entries, hdenoted⟩
    exact ⟨⟨entries, hsorted.of_keys_eq hdenoted.keys_eq⟩, hdenoted⟩

/-- A canonical tree is no configuration exactly if it is no object, or a member of it has a
fault, and that of the least name is reported. -/
theorem ofJson_eq_error_iff {j : Json} (h : j.Canonical) {fault : Fault} :
    ofJson j = .error fault ↔ ((∀ members, j ≠ .obj members) ∧ fault = .notObject j) ∨
      ∃ members, j = .obj members ∧ Entries.Least MemberFault members fault := by
  cases j with
  | obj members =>
    have hsorted := (Json.canonical_obj_iff.mp h).1
    simp [ofJson, map_eq_error_iff, memberValues_eq_error_iff hsorted]
  | _ => simp [ofJson, eq_comm]

end ComponentKinds.Config
