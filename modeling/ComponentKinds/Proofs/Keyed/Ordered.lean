import ComponentKinds.Keyed
import Mathlib.Data.List.Count

/-!
# Entries in the order of their keys

Entries are ordered by key without a new entry, and what stands at a key that does not repeat
stays there. Ordered pairs are the entries of the map that is made of them. A check that visits
ordered entries one after the other and stops at the first that fails reports the failure of
the least key, and which key that is depends on the entries alone and not on the visit.
-/

namespace ComponentKinds

namespace Entries

variable {α : Type}

/-- An ordered list does not repeat a key. -/
theorem Sorted.nodup {entries : Entries α} (h : Sorted entries) :
    (entries.map Prod.fst).Nodup := by
  rw [List.Nodup, List.pairwise_map]
  refine h.imp ?_
  intro a b hlt heq
  rw [heq] at hlt
  exact String.lt_irrefl _ hlt

/-- Whether entries are ordered depends on their keys alone. -/
theorem Sorted.of_keys_eq {β : Type} {entries : Entries α} {others : Entries β}
    (h : Sorted entries) (heq : entries.map Prod.fst = others.map Prod.fst) : Sorted others := by
  have hkeys := List.pairwise_map.mpr h
  rw [heq] at hkeys
  exact List.pairwise_map.mp hkeys

/-- Ordered entries under the same keys list them in the same order. -/
theorem Sorted.keys_eq {entries others : Entries α} (h : Sorted entries) (h' : Sorted others)
    (hkeys : ∀ key, key ∈ entries.map Prod.fst ↔ key ∈ others.map Prod.fst) :
    entries.map Prod.fst = others.map Prod.fst := by
  have hperm := (List.perm_ext_iff_of_nodup h.nodup h'.nodup).mpr hkeys
  refine hperm.eq_of_pairwise ?_ (List.pairwise_map.mpr h) (List.pairwise_map.mpr h')
  intro a b _ _ hlt hgt
  exact absurd hgt (String.lt_asymm hlt)

private theorem mem_of_mem_insert {key : String} {value : α} {entries : Entries α}
    {entry : String × α} (h : entry ∈ insert key value entries) :
    entry = (key, value) ∨ entry ∈ entries := by
  induction entries with
  | nil => simpa [insert] using h
  | cons head rest ih =>
    obtain ⟨other, old⟩ := head
    simp only [insert] at h
    split at h
    · rcases List.mem_cons.mp h with h | h
      · exact Or.inl h
      · exact Or.inr (List.mem_cons_of_mem _ h)
    · split at h
      · exact List.mem_cons.mp h
      · rcases List.mem_cons.mp h with h | h
        · exact Or.inr (h ▸ List.mem_cons_self)
        · exact (ih h).imp_right (List.mem_cons_of_mem _)

/-- Ordering entries adds none. -/
theorem mem_of_mem_sort {entries : Entries α} {entry : String × α} (h : entry ∈ sort entries) :
    entry ∈ entries := by
  induction entries with
  | nil => exact h
  | cons head rest ih =>
    obtain ⟨key, value⟩ := head
    simp only [sort] at h
    split at h
    · exact List.mem_cons_of_mem _ (ih h)
    · rcases mem_of_mem_insert h with rfl | h
      · exact List.mem_cons_self
      · exact List.mem_cons_of_mem _ (ih h)

/-- Ordering entries leaves what stands at a key that does not repeat. -/
theorem find?_sort {key : String} {entries : Entries α}
    (h : (entries.map Prod.fst).count key ≤ 1) : find? key (sort entries) = find? key entries := by
  induction entries with
  | nil => rfl
  | cons head rest ih =>
    obtain ⟨other, value⟩ := head
    rw [List.map_cons, List.count_cons] at h
    have hrest := ih (by omega)
    by_cases hkey : key = other
    · subst hkey
      have habsent : find? key rest = none := by
        rw [← Option.not_isSome_iff_eq_none, find?_isSome_iff, ← List.count_pos_iff]
        simp only [BEq.rfl, ite_true] at h
        omega
      simp [sort, habsent, find?_insert, find?]
    · simp only [sort, find?, if_neg hkey]
      split
      · exact hrest
      · rw [find?_insert, if_neg hkey, hrest]

/-- Ordered entries stay as they are. -/
theorem Sorted.sort_eq {entries : Entries α} (h : Sorted entries) : sort entries = entries := by
  refine (sorted_sort entries).ext h fun key => find?_sort ?_
  exact List.nodup_iff_count.mp h.nodup key

section Least

variable {β ε : Type} {Fails : String → α → ε → Prop}

/-- A failure under the least of all keys that have one. -/
def Least (Fails : String → α → ε → Prop) (entries : Entries α) (e : ε) : Prop :=
  ∃ key value, (key, value) ∈ entries ∧ Fails key value e ∧
    ∀ other v e', (other, v) ∈ entries → Fails other v e' → key ≤ other

/-- What fails at the front of ordered entries is the least failure. -/
theorem Sorted.least_cons_of_fails {key : String} {value : α} {rest : Entries α} {e e' : ε}
    (h : Sorted ((key, value) :: rest)) (he : Fails key value e)
    (hunique : ∀ e', Fails key value e' → e = e') :
    Least Fails ((key, value) :: rest) e' ↔ e = e' := by
  have hbelow : ∀ other v, (other, v) ∈ rest → key < other := fun other v hmem =>
    (sorted_cons.mp h).1 other (List.mem_map_of_mem (f := Prod.fst) hmem)
  constructor
  · rintro ⟨other, v, hmem, he', hleast⟩
    rcases List.mem_cons.mp hmem with heq | hmem
    · cases heq
      exact hunique e' he'
    · have hle := hleast key value e List.mem_cons_self he
      exact absurd (hbelow other v hmem) (String.not_lt.mpr hle)
  · rintro rfl
    refine ⟨key, value, List.mem_cons_self, he, ?_⟩
    intro other v _ hmem _
    rcases List.mem_cons.mp hmem with heq | hmem
    · cases heq
      exact String.le_refl _
    · exact String.not_lt.mp (String.lt_asymm (hbelow other v hmem))

/-- Entries with the same failures under every key have the same least failure. -/
theorem least_congr {Fails' : String → β → ε → Prop} {entries : Entries α} {others : Entries β}
    (h : ∀ key e, (∃ value, (key, value) ∈ entries ∧ Fails key value e) ↔
      ∃ value, (key, value) ∈ others ∧ Fails' key value e) {e : ε} :
    Least Fails entries e ↔ Least Fails' others e := by
  constructor
  · rintro ⟨key, value, hmem, he, hleast⟩
    obtain ⟨value', hmem', he'⟩ := (h key e).mp ⟨value, hmem, he⟩
    refine ⟨key, value', hmem', he', fun other v e'' hother hfails => ?_⟩
    obtain ⟨w, hw, hfails'⟩ := (h other e'').mpr ⟨v, hother, hfails⟩
    exact hleast other w e'' hw hfails'
  · rintro ⟨key, value, hmem, he, hleast⟩
    obtain ⟨value', hmem', he'⟩ := (h key e).mpr ⟨value, hmem, he⟩
    refine ⟨key, value', hmem', he', fun other v e'' hother hfails => ?_⟩
    obtain ⟨w, hw, hfails'⟩ := (h other e'').mp ⟨v, hother, hfails⟩
    exact hleast other w e'' hw hfails'

/-- What does not fail leaves the least failure to the other entries. -/
theorem least_cons_of_not {key : String} {value : α} {rest : Entries α} {e : ε}
    (hnot : ∀ e, ¬Fails key value e) :
    Least Fails ((key, value) :: rest) e ↔ Least Fails rest e := by
  refine least_congr fun other e => exists_congr fun v => and_congr_left fun he => ?_
  rw [List.mem_cons, or_iff_right]
  rintro ⟨⟩
  exact hnot e he

end Least

end Entries

namespace Keyed

variable {α : Type}

/-- Pairs that repeat no key replace what a map has at their keys, and nothing else. -/
theorem get?_foldl_insert {pairs : List (String × α)} (h : (pairs.map Prod.fst).Nodup)
    (m : Keyed α) {key : String} {value : α} :
    (pairs.foldl (fun m pair => m.insert pair.1 pair.2) m).get? key = some value ↔
      (key, value) ∈ pairs ∨ key ∉ pairs.map Prod.fst ∧ m.get? key = some value := by
  induction pairs generalizing m with
  | nil => simp
  | cons pair rest ih =>
    obtain ⟨other, v⟩ := pair
    rw [List.map_cons, List.nodup_cons] at h
    rw [List.foldl_cons, ih h.2, get?_insert]
    by_cases hkey : key = other
    · subst hkey
      have hnew : key ∉ rest.map Prod.fst := h.1
      have habsent : (key, value) ∉ rest := fun hmem =>
        hnew (List.mem_map_of_mem (f := Prod.fst) hmem)
      simp [habsent, hnew, eq_comm]
    · simp [hkey]

/-- Ordered pairs are the entries of the map that is made of them. -/
theorem ofList_eq_iff {pairs : List (String × α)} (h : Entries.Sorted pairs) {m : Keyed α} :
    ofList pairs = m ↔ pairs = m.entries := by
  have hentries : (ofList pairs).entries = pairs := by
    refine (ofList pairs).sorted.ext h fun key => Option.ext fun value => ?_
    rw [h.find?_eq_some_iff]
    exact (get?_foldl_insert h.nodup empty).trans (by simp)
  constructor
  · rintro rfl
    exact hentries.symm
  · rintro heq
    exact ext fun key => congrArg (Entries.find? key) (hentries.trans heq)

end Keyed

end ComponentKinds
