import ComponentKinds.Json.Basic
import ComponentKinds.Proofs.Keyed.Ordered

/-!
# Canonical trees

Bringing a tree into canonical form makes it canonical, leaves every leaf, and leaves what
stands at a key that occurs once. What an array or an object of a canonical tree holds is
canonical again, and no key of such an object repeats.
-/

namespace ComponentKinds

namespace Json

theorem canonical_eq_str_iff {j : Json} {s : String} : j.canonical = .str s ↔ j = .str s := by
  cases j <;> simp [canonical]

theorem canonical_eq_null_iff {j : Json} : j.canonical = .null ↔ j = .null := by
  cases j <;> simp [canonical]

/-- The canonical form keeps the keys and their order until the members are ordered. -/
theorem keys_canonicalMembers (members : List (String × Json)) :
    (canonicalMembers members).map Prod.fst = members.map Prod.fst := by
  induction members with
  | nil => rfl
  | cons member rest ih => simp [canonicalMembers, ih]

theorem canonicalItems_eq_map (items : List Json) : canonicalItems items = items.map canonical := by
  induction items with
  | nil => rfl
  | cons item rest ih => rw [canonicalItems, ih, List.map_cons]

/-- What stands at a key that occurs once is brought into canonical form. -/
theorem find?_canonical {key : String} {members : List (String × Json)}
    (h : (members.map Prod.fst).count key ≤ 1) :
    Entries.find? key (Entries.sort (canonicalMembers members)) =
      (Entries.find? key members).map canonical := by
  rw [Entries.find?_sort (by rwa [keys_canonicalMembers])]
  clear h
  induction members with
  | nil => rfl
  | cons member rest ih =>
    simp only [canonicalMembers, Entries.find?]
    split
    · rfl
    · exact ih

theorem itemsCanonical_iff {items : List Json} :
    itemsCanonical items = true ↔ ∀ item ∈ items, item.Canonical := by
  induction items with
  | nil => simp [itemsCanonical]
  | cons item rest ih => simp [itemsCanonical, ih, Canonical]

theorem membersCanonical_iff {members : List (String × Json)} :
    membersCanonical members = true ↔ ∀ member ∈ members, member.2.Canonical := by
  induction members with
  | nil => simp [membersCanonical]
  | cons member rest ih => simp [membersCanonical, ih, Canonical]

/-- The items of a canonical array are canonical. -/
theorem canonical_arr_iff {items : List Json} :
    (arr items).Canonical ↔ ∀ item ∈ items, item.Canonical := by
  rw [← itemsCanonical_iff]
  simp [Canonical, isCanonical]

/-- The members of a canonical object are in order and have canonical values. -/
theorem canonical_obj_iff {members : List (String × Json)} :
    (obj members).Canonical ↔
      Entries.Sorted members ∧ ∀ member ∈ members, member.2.Canonical := by
  rw [← membersCanonical_iff]
  simp [Canonical, isCanonical]

mutual

/-- The canonical form of a tree is canonical. -/
theorem canonical_canonical (j : Json) : j.canonical.Canonical := by
  match j with
  | .null | .bool _ | .num _ | .str _ => rfl
  | .arr items => exact canonical_arr_iff.mpr (canonical_canonicalItems items)
  | .obj members =>
    refine canonical_obj_iff.mpr ⟨Entries.sorted_sort _, ?_⟩
    intro member hmem
    exact canonical_canonicalMembers members member (Entries.mem_of_mem_sort hmem)

private theorem canonical_canonicalItems (items : List Json) :
    ∀ item ∈ canonicalItems items, item.Canonical := by
  match items with
  | [] => nofun
  | item :: rest =>
    intro other hmem
    rcases List.mem_cons.mp hmem with rfl | hmem
    · exact canonical_canonical item
    · exact canonical_canonicalItems rest other hmem

private theorem canonical_canonicalMembers (members : List (String × Json)) :
    ∀ member ∈ canonicalMembers members, member.2.Canonical := by
  match members with
  | [] => nofun
  | (key, value) :: rest =>
    intro other hmem
    rcases List.mem_cons.mp hmem with rfl | hmem
    · exact canonical_canonical value
    · exact canonical_canonicalMembers rest other hmem

end

mutual

/-- A canonical tree is its own canonical form. -/
theorem Canonical.canonical_eq {j : Json} (h : j.Canonical) : j.canonical = j := by
  match j with
  | .null | .bool _ | .num _ | .str _ => rfl
  | .arr items => rw [canonical, canonicalItems_eq_self (canonical_arr_iff.mp h)]
  | .obj members =>
    obtain ⟨hsorted, hvalues⟩ := canonical_obj_iff.mp h
    rw [canonical, canonicalMembers_eq_self hvalues, hsorted.sort_eq]

private theorem canonicalItems_eq_self {items : List Json} (h : ∀ item ∈ items, item.Canonical) :
    canonicalItems items = items := by
  match items with
  | [] => rfl
  | item :: rest =>
    obtain ⟨hitem, hrest⟩ := List.forall_mem_cons.mp h
    rw [canonicalItems, hitem.canonical_eq, canonicalItems_eq_self hrest]

private theorem canonicalMembers_eq_self {members : List (String × Json)}
    (h : ∀ member ∈ members, member.2.Canonical) : canonicalMembers members = members := by
  match members with
  | [] => rfl
  | (key, value) :: rest =>
    obtain ⟨hvalue, hrest⟩ := List.forall_mem_cons.mp h
    rw [canonicalMembers, Canonical.canonical_eq hvalue, canonicalMembers_eq_self hrest]

end

end Json

end ComponentKinds
