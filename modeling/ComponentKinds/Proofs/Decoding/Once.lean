import ComponentKinds.Proofs.Decoding.Grammar

/-!
# Members that are written once

Where no object that is read repeats a member that is read, the tree of a text denotes the
same as its canonical form, in which the last of several members with one key is kept.
Members with other keys, and objects that are not read, may repeat as they like.
-/

namespace ComponentKinds.Json

/-- How often a key occurs among members. -/
def occurrences (key : String) (members : List (String × Json)) : Nat :=
  (members.map Prod.fst).count key

/-- The object of a kind does not repeat its member. -/
def KindOnce : Json → Prop
  | .obj members => (members.map Prod.fst).Nodup
  | _ => True

/-- The object of an attribute repeats no part, and its kind no member. -/
def AttributeOnce : Json → Prop
  | .obj members => (∀ key ∈ ["name", "kind", "default"], occurrences key members ≤ 1) ∧
      ∀ kind, Entries.find? "kind" members = some kind → kind.KindOnce
  | .arr (_ :: kind :: _) => kind.KindOnce
  | _ => True

/-- No attribute of an array repeats a part. -/
def AttributesOnce : Json → Prop
  | .arr items => ∀ item ∈ items, item.AttributeOnce
  | _ => True

/-- The object of a schema repeats no part, and neither do its attributes and kinds. -/
def SchemaOnce : Json → Prop
  | .obj members => (∀ key ∈ ["name", "options"], occurrences key members ≤ 1) ∧
      ∀ options, Entries.find? "options" members = some options → options.AttributesOnce
  | .arr (_ :: options :: _) => options.AttributesOnce
  | _ => True

/-- A kind is not denoted by an object that repeats its member. -/
theorem DenotesKind.once {j : Json} {k : ValueKind} (h : DenotesKind j k) : j.KindOnce := by
  cases h with
  | token => trivial
  | object => simp [KindOnce]

/-- Ordering the members of an object settles the same part if its key occurs once. -/
theorem settles_canonical {α : Type} {key : String} {Denotes : Json → α → Prop}
    {members : List (String × Json)} (hkey : occurrences key members ≤ 1)
    (hdenotes : ∀ j x, Entries.find? key members = some j →
      (Denotes j.canonical x ↔ Denotes j x)) {before after : Option α} :
    Settles key Denotes (Entries.sort (canonicalMembers members)) before after ↔
      Settles key Denotes members before after := by
  unfold Settles
  rw [find?_canonical hkey]
  cases hfound : Entries.find? key members with
  | none => exact Iff.rfl
  | some j => simp only [Option.map_some, hdenotes j _ hfound]

theorem denotesString_canonical {j : Json} {s : String} :
    DenotesString j.canonical s ↔ DenotesString j s :=
  canonical_eq_str_iff

/-- A list of members without repeated keys is a single one exactly if its ordered
canonical form is. -/
private theorem sort_eq_singleton_iff {members : List (String × Json)} {token : String}
    (hnodup : (members.map Prod.fst).Nodup) :
    Entries.sort (canonicalMembers members) = [(token, .null)] ↔
      members = [(token, .null)] := by
  constructor
  · intro h
    have hfind : ∀ key, (Entries.find? key members).map canonical =
        Entries.find? key [(token, .null)] := by
      intro key
      rw [← find?_canonical (List.nodup_iff_count.mp hnodup key), h]
    match members with
    | [] => simpa [Entries.find?] using hfind token
    | [(key, value)] =>
      have hkey := hfind key
      by_cases heq : key = token
      · subst heq
        simpa [Entries.find?, canonical_eq_null_iff] using hkey
      · simp [Entries.find?, heq] at hkey
    | (key, value) :: (other, value') :: rest =>
      have hne : other ≠ key := by
        rintro rfl
        simp at hnodup
      have hkey := hfind key
      have hother := hfind other
      by_cases heq : key = token
      · subst heq
        simp [Entries.find?, hne] at hother
      · simp [Entries.find?, heq] at hkey
  · rintro rfl
    rfl

theorem denotesKind_canonical {j : Json} (h : j.KindOnce) {k : ValueKind} :
    DenotesKind j.canonical k ↔ DenotesKind j k := by
  cases j with
  | obj members => rw [canonical, denotesKind_obj_iff, denotesKind_obj_iff, sort_eq_singleton_iff h]
  | arr items => constructor <;> rintro ⟨⟩
  | _ => exact Iff.rfl

/-- A tree is the form of a value exactly if its canonical form is. -/
theorem canonical_eq_toJson_iff {j : Json} {v : Value} : j.canonical = v.toJson ↔ j = v.toJson := by
  have hitems : ∀ (items : List Json) (strings : List String),
      items.map canonical = strings.map .str ↔ items = strings.map .str := by
    intro items strings
    induction items generalizing strings with
    | nil => simp [eq_comm]
    | cons item rest ih =>
      cases strings with
      | nil => simp
      | cons s strings => simp [canonical_eq_str_iff, ih]
  cases v with
  | strings strings =>
    cases j with
    | arr items => simp [canonical, Value.toJson, canonicalItems_eq_map, hitems]
    | _ => simp [canonical, Value.toJson]
  | _ => cases j <;> simp [canonical, Value.toJson]

theorem denotesDefault_canonical {j : Json} {default? : Option Value} :
    DenotesDefault j.canonical default? ↔ DenotesDefault j default? := by
  rw [denotesDefault_iff_toJson, denotesDefault_iff_toJson]
  simp only [canonical_eq_null_iff, canonical_eq_toJson_iff]

theorem denotesOptional_map_canonical {j? : Option Json} {default? : Option Value} :
    DenotesOptional (j?.map canonical) default? ↔ DenotesOptional j? default? := by
  cases j? with
  | none => exact Iff.rfl
  | some j =>
    constructor
    · rintro ⟨⟩
      next h => exact .present (denotesDefault_canonical.mp h)
    · rintro ⟨⟩
      next h => exact .present (denotesDefault_canonical.mpr h)

/-- An attribute whose parts are written once is also denoted by the canonical form. -/
theorem denotesAttribute_canonical {j : Json} (h : j.AttributeOnce) {a : Attribute} :
    DenotesAttribute j.canonical a ↔ DenotesAttribute j a := by
  cases j with
  | obj members =>
    obtain ⟨honce, hkind⟩ := h
    have hname : ∀ name?,
        Settles "name" DenotesString (Entries.sort (canonicalMembers members)) none name? ↔
          Settles "name" DenotesString members none name? := by
      intro name?
      apply settles_canonical (honce "name" (by simp))
      intro _ _ _
      exact denotesString_canonical
    have hkinds : ∀ kind?,
        Settles "kind" DenotesKind (Entries.sort (canonicalMembers members)) none kind? ↔
          Settles "kind" DenotesKind members none kind? := by
      intro kind?
      apply settles_canonical (honce "kind" (by simp))
      intro kind _ hfound
      exact denotesKind_canonical (hkind kind hfound)
    have hdefault : ∀ default?,
        Settles "default" DenotesDefault (Entries.sort (canonicalMembers members)) none default? ↔
          Settles "default" DenotesDefault members none default? := by
      intro default?
      apply settles_canonical (honce "default" (by simp))
      intro _ _ _
      exact denotesDefault_canonical
    simp only [canonical, denotesAttribute_obj_iff, hname, hkinds, hdefault]
  | arr items =>
    rw [canonical, canonicalItems_eq_map, denotesAttribute_arr_iff, denotesAttribute_arr_iff]
    constructor
    · intro hread
      obtain ⟨j', third', heq, hkind, hdefault⟩ := hread
      obtain ⟨first, tail, rfl, hfirst, htail⟩ := List.map_eq_cons_iff.mp heq
      obtain ⟨second, rest, rfl, rfl, hrest⟩ := List.map_eq_cons_iff.mp htail
      rw [canonical_eq_str_iff.mp hfirst]
      have hthird : ∃ third : Option Json, rest = third.toList ∧ third' = third.map canonical := by
        cases third' with
        | none => exact ⟨none, by simpa using hrest, rfl⟩
        | some t =>
          obtain ⟨third, last, rfl, rfl, hlast⟩ := List.map_eq_cons_iff.mp hrest
          exact ⟨some third, by simpa using hlast, rfl⟩
      obtain ⟨third, rfl, rfl⟩ := hthird
      exact ⟨second, third, rfl, (denotesKind_canonical h).mp hkind,
        denotesOptional_map_canonical.mp hdefault⟩
    · intro hdenotes
      obtain ⟨second, third, rfl, hkind, hdefault⟩ := hdenotes
      refine ⟨second.canonical, third.map canonical, ?_, (denotesKind_canonical h).mpr hkind,
        denotesOptional_map_canonical.mpr hdefault⟩
      cases third <;> rfl
  | _ => exact Iff.rfl

/-- Attributes whose parts are written once are also denoted by the canonical form. -/
theorem denotesAttributes_canonical {j : Json} (h : j.AttributesOnce)
    {attributes : List Attribute} :
    DenotesAttributes j.canonical attributes ↔ DenotesAttributes j attributes := by
  cases j with
  | arr items =>
    have hitems : List.Forall₂ DenotesAttribute (canonicalItems items) attributes ↔
        List.Forall₂ DenotesAttribute items attributes := by
      have honce : ∀ item ∈ items, item.AttributeOnce := h
      clear h
      induction items generalizing attributes with
      | nil => exact Iff.rfl
      | cons item rest ih =>
        have hrest : ∀ other ∈ rest, other.AttributeOnce := fun other hmem =>
          honce other (List.mem_cons_of_mem _ hmem)
        simp only [canonicalItems, List.forall₂_cons_left_iff, ih hrest,
          denotesAttribute_canonical (honce item List.mem_cons_self)]
    simpa [DenotesAttributes, canonical] using hitems
  | _ => simp [DenotesAttributes, canonical]

/-- A declaration whose parts are written once is also denoted by the canonical form. -/
theorem denotesDeclaration_canonical {j : Json} (h : j.SchemaOnce) {d : Schema.Declaration} :
    DenotesDeclaration j.canonical d ↔ DenotesDeclaration j d := by
  cases j with
  | obj members =>
    obtain ⟨honce, hoptions⟩ := h
    have hname : ∀ name?,
        Settles "name" DenotesString (Entries.sort (canonicalMembers members)) none name? ↔
          Settles "name" DenotesString members none name? := by
      intro name?
      apply settles_canonical (honce "name" (by simp))
      intro _ _ _
      exact denotesString_canonical
    have hattributes : ∀ options?,
        Settles "options" DenotesAttributes (Entries.sort (canonicalMembers members)) none
            options? ↔
          Settles "options" DenotesAttributes members none options? := by
      intro options?
      apply settles_canonical (honce "options" (by simp))
      intro options _ hfound
      exact denotesAttributes_canonical (hoptions options hfound)
    simp only [canonical, denotesDeclaration_obj_iff, hname, hattributes]
  | arr items =>
    rw [canonical, canonicalItems_eq_map, denotesDeclaration_arr_iff, denotesDeclaration_arr_iff]
    constructor
    · intro hread
      obtain ⟨options', heq, hattributes⟩ := hread
      obtain ⟨first, tail, rfl, hfirst, htail⟩ := List.map_eq_cons_iff.mp heq
      obtain ⟨options, rest, rfl, rfl, hrest⟩ := List.map_eq_cons_iff.mp htail
      rw [canonical_eq_str_iff.mp hfirst, List.map_eq_nil_iff.mp hrest]
      exact ⟨options, rfl, (denotesAttributes_canonical h).mp hattributes⟩
    · intro hdenotes
      obtain ⟨options, rfl, hattributes⟩ := hdenotes
      exact ⟨options.canonical, rfl, (denotesAttributes_canonical h).mpr hattributes⟩
  | _ => exact Iff.rfl

end ComponentKinds.Json
