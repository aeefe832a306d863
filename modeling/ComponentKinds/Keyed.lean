/-!
# Values by name

A finite map from strings is kept as a list of entries in strictly increasing order of
the keys, which is the order of their code points. The order belongs to the type, so two
maps with the same value at every key are equal and their entries are read in key order.
Lookup and insertion are stated on plain entry lists first, without the order.
-/

namespace ComponentKinds

/-- Pairs of a key and a value. -/
abbrev Entries (α : Type) := List (String × α)

namespace Entries

variable {α : Type}

/-- Keys increase strictly along the list, so no key repeats. -/
def Sorted (entries : Entries α) : Prop := entries.Pairwise fun a b => a.1 < b.1

instance (entries : Entries α) : Decidable (Sorted entries) :=
  inferInstanceAs (Decidable (entries.Pairwise fun a b => a.1 < b.1))

/-- The value of the first entry with the key. -/
def find? (key : String) : Entries α → Option α
  | [] => none
  | (other, value) :: rest => if key = other then some value else find? key rest

/-- Set a key in an ordered list; an entry of the same key is replaced. -/
def insert (key : String) (value : α) : Entries α → Entries α
  | [] => [(key, value)]
  | (other, old) :: rest =>
    if key = other then (key, value) :: rest
    else if key < other then (key, value) :: (other, old) :: rest
    else (other, old) :: insert key value rest

/-- The entries in key order; of entries with one key the last is kept. -/
def sort : Entries α → Entries α
  | [] => []
  | (key, value) :: rest =>
    if (find? key rest).isSome then sort rest else insert key value (sort rest)

/-- Strings that are not smaller either way are equal. -/
theorem key_lt_of_not {key other : String} (hne : key ≠ other) (hlt : ¬key < other) :
    other < key :=
  Classical.byContradiction fun hgt =>
    hne (String.le_antisymm (String.not_lt.mp hgt) (String.not_lt.mp hlt))

@[simp] theorem find?_nil (key : String) : find? key ([] : Entries α) = none := rfl

/-- Insertion changes the value of its key and of no other. -/
theorem find?_insert (key other : String) (value : α) (entries : Entries α) :
    find? other (insert key value entries) =
      if other = key then some value else find? other entries := by
  induction entries with
  | nil => simp [insert, find?]
  | cons entry rest ih =>
    obtain ⟨head, old⟩ := entry
    simp only [insert]
    split
    · next heq => subst heq; simp only [find?]; split <;> rfl
    · next hne =>
      split
      · simp only [find?]
      · simp only [find?, ih]
        grind

/-- The keys after an insertion are the inserted one and those from before. -/
theorem mem_keys_insert {key other : String} {value : α} {entries : Entries α} :
    other ∈ (insert key value entries).map Prod.fst ↔
      other = key ∨ other ∈ entries.map Prod.fst := by
  induction entries with
  | nil => simp [insert]
  | cons entry rest ih =>
    obtain ⟨head, old⟩ := entry
    simp only [insert]
    split
    · next heq => subst heq; simp
    · split
      · simp
      · simp only [List.map_cons, List.mem_cons, ih]
        grind

/-- Order in terms of the head: its key is below every later one. -/
theorem sorted_cons {key : String} {value : α} {rest : Entries α} :
    Sorted ((key, value) :: rest) ↔
      (∀ other ∈ rest.map Prod.fst, key < other) ∧ Sorted rest := by
  simp [Sorted, List.pairwise_cons, List.mem_map]

/-- Insertion keeps the order. -/
theorem Sorted.insert {entries : Entries α} (h : Sorted entries) (key : String) (value : α) :
    Sorted (entries.insert key value) := by
  induction entries with
  | nil => simp [Entries.insert, Sorted]
  | cons entry rest ih =>
    obtain ⟨head, old⟩ := entry
    have ⟨hhead, hrest⟩ := sorted_cons.mp h
    simp only [Entries.insert]
    split
    · next heq => subst heq; exact sorted_cons.mpr ⟨hhead, hrest⟩
    · next hne =>
      split
      · next hlt =>
        refine sorted_cons.mpr ⟨fun other hother => ?_, h⟩
        rcases List.mem_cons.mp hother with rfl | hmem
        · exact hlt
        · exact String.lt_trans hlt (hhead other hmem)
      · next hlt =>
        refine sorted_cons.mpr ⟨fun other hother => ?_, ih hrest⟩
        rcases mem_keys_insert.mp hother with rfl | hmem
        · exact key_lt_of_not hne hlt
        · exact hhead other hmem

/-- Sorted entries are in order. -/
theorem sorted_sort (entries : Entries α) : Sorted entries.sort := by
  induction entries with
  | nil => exact List.Pairwise.nil
  | cons entry rest ih =>
    obtain ⟨key, value⟩ := entry
    simp only [sort]
    split
    · exact ih
    · exact ih.insert key value

/-- A key has a value exactly if it occurs. -/
theorem find?_isSome_iff {key : String} {entries : Entries α} :
    (find? key entries).isSome ↔ key ∈ entries.map Prod.fst := by
  induction entries with
  | nil => simp
  | cons entry rest ih =>
    obtain ⟨head, old⟩ := entry
    simp only [find?, List.map_cons, List.mem_cons]
    split
    · next heq => simp [heq]
    · next hne => simp [ih, hne]

/-- An entry of an ordered list is the one that its key finds. -/
theorem Sorted.find?_eq_some_iff {entries : Entries α} (h : Sorted entries) {key : String}
    {value : α} : find? key entries = some value ↔ (key, value) ∈ entries := by
  induction entries with
  | nil => simp
  | cons entry rest ih =>
    obtain ⟨head, old⟩ := entry
    have ⟨hhead, hrest⟩ := sorted_cons.mp h
    simp only [find?, List.mem_cons, Prod.mk.injEq]
    split
    · next heq =>
      subst heq
      have habsent : (key, value) ∉ rest := fun hmem =>
        String.lt_irrefl key (hhead key (List.mem_map_of_mem (f := Prod.fst) hmem))
      simp [habsent, eq_comm]
    · next hne => simp [hne, ih hrest]

/-- Ordered lists with the same value at every key are the same list. -/
theorem Sorted.ext {a b : Entries α} (ha : Sorted a) (hb : Sorted b)
    (h : ∀ key, find? key a = find? key b) : a = b := by
  induction a generalizing b with
  | nil =>
    cases b with
    | nil => rfl
    | cons entry rest => simpa [find?] using h entry.1
  | cons entry rest ih =>
    obtain ⟨key, value⟩ := entry
    have ⟨hkey, hrest⟩ := sorted_cons.mp ha
    cases b with
    | nil => simpa [find?] using h key
    | cons entry' rest' =>
      obtain ⟨key', value'⟩ := entry'
      have ⟨hkey', hrest'⟩ := sorted_cons.mp hb
      have hin : key ∈ ((key', value') :: rest').map Prod.fst := by
        rw [← find?_isSome_iff, ← h key]; simp [find?]
      have hin' : key' ∈ ((key, value) :: rest).map Prod.fst := by
        rw [← find?_isSome_iff, h key']; simp [find?]
      have hkeys : key = key' := by
        rcases List.mem_cons.mp hin with heq | hmem
        · exact heq
        · rcases List.mem_cons.mp hin' with heq | hmem'
          · exact heq.symm
          · exact absurd (hkey key' hmem') (String.lt_asymm (hkey' key hmem))
      subst hkeys
      have hvalue : value = value' := by simpa [find?] using h key
      subst hvalue
      congr 1
      refine ih hrest hrest' fun other => ?_
      by_cases heq : other = key
      · subst heq
        have hnone : ∀ {l : Entries α}, (∀ x ∈ l.map Prod.fst, other < x) →
            find? other l = none := fun hl =>
          Option.not_isSome_iff_eq_none.mp fun hsome =>
            String.lt_irrefl other (hl other (find?_isSome_iff.mp hsome))
        rw [hnone hkey, hnone hkey']
      · simpa [find?, heq] using h other

end Entries

/-- A finite map from strings, as its entries in key order. -/
structure Keyed (α : Type) where
  /-- All entries, by key. -/
  entries : Entries α
  /-- The keys increase strictly. -/
  sorted : entries.Sorted
  deriving DecidableEq

namespace Keyed

variable {α : Type}

/-- The map without entries. -/
def empty : Keyed α := ⟨[], List.Pairwise.nil⟩

instance : Inhabited (Keyed α) := ⟨empty⟩

/-- The value at a key. -/
def get? (m : Keyed α) (key : String) : Option α := m.entries.find? key

/-- Whether a key has a value. -/
def contains (m : Keyed α) (key : String) : Bool := (m.get? key).isSome

/-- Set the value at a key, in place of an earlier one. -/
def insert (m : Keyed α) (key : String) (value : α) : Keyed α :=
  ⟨m.entries.insert key value, m.sorted.insert key value⟩

/-- Set pairs one after the other, so that the last of one key stays. -/
def ofList (pairs : List (String × α)) : Keyed α :=
  pairs.foldl (fun m pair => m.insert pair.1 pair.2) empty

@[simp] theorem get?_empty (key : String) : (empty : Keyed α).get? key = none := rfl

/-- An insertion sets the value at its key and leaves every other value. -/
theorem get?_insert (m : Keyed α) (key other : String) (value : α) :
    (m.insert key value).get? other = if other = key then some value else m.get? other :=
  Entries.find?_insert key other value m.entries

/-- A value stands at its key exactly if the pair is an entry. -/
theorem mem_entries_iff {m : Keyed α} {key : String} {value : α} :
    (key, value) ∈ m.entries ↔ m.get? key = some value :=
  m.sorted.find?_eq_some_iff.symm

/-- Maps with the same value at every key are equal. -/
theorem ext {a b : Keyed α} (h : ∀ key, a.get? key = b.get? key) : a = b := by
  obtain ⟨entriesA, sortedA⟩ := a
  obtain ⟨entriesB, sortedB⟩ := b
  have heq : entriesA = entriesB := sortedA.ext sortedB h
  subst heq
  rfl

end Keyed

end ComponentKinds
