import ComponentKinds.Value.Json
import Mathlib.Data.List.Basic

/-!
# The JSON forms of attribute values

A tree is an attribute value exactly if it is the form that some value is written in. The
kinds are tried one after the other, but no tree is the form of values of two kinds.
-/

namespace ComponentKinds.Value

/-- A 64-bit integer is recovered from its value, and nothing else is one. -/
theorem int64?_eq_some_iff {n : Int} {i : Int64} : int64? n = some i ↔ n = i.toInt := by
  unfold int64?
  constructor
  · intro h
    split at h
    · next hrange =>
      cases h
      rw [Int64.toInt_minValue, Int64.toInt_maxValue] at hrange
      exact (Int64.toInt_ofInt_of_le hrange.1 (by omega)).symm
    · cases h
  · rintro rfl
    rw [if_pos ⟨i.minValue_le_toInt, i.toInt_le⟩, Int64.ofInt_toInt]

/-- All items are strings exactly if the list is the form of a list of strings. -/
theorem mapM_jsonString?_eq_some_iff {items : List Json} {strings : List String} :
    items.mapM jsonString? = some strings ↔ items = strings.map .str := by
  induction items generalizing strings with
  | nil => simp [eq_comm]
  | cons item rest ih =>
    cases item <;> cases strings <;>
      simp [jsonString?, ih, Option.bind_eq_some_iff, and_comm]

/-- Different values have different forms. -/
theorem toJson_injective {v w : Value} (h : v.toJson = w.toJson) : v = w := by
  cases v <;> cases w <;> simp_all [toJson, Int64.toInt_inj, List.map_inj_right]

/-- A tree is read as a kind exactly if it is the form of a value of the kind. -/
theorem decodeAs?_eq_some_iff {k : ValueKind} {j : Json} {x : k.Carrier} :
    decodeAs? k j = some x ↔ j = (of k x).toJson := by
  cases k with
  | bool => cases j <;> simp [decodeAs?, of, toJson]
  | int =>
    cases j with
    | num n => cases n <;> simp [decodeAs?, of, toJson, int64?_eq_some_iff]
    | _ => simp [decodeAs?, of, toJson]
  | string => cases j <;> simp [decodeAs?, of, toJson]
  | strings => cases j <;> simp [decodeAs?, of, toJson, mapM_jsonString?_eq_some_iff]

private theorem eq_toJson_of_untagged? {j : Json} {v : Value} (h : untagged? j = some v) :
    j = v.toJson := by
  obtain ⟨k, _, hk⟩ := List.exists_of_findSome?_eq_some h
  obtain ⟨x, hx, rfl⟩ := Option.map_eq_some_iff.mp hk
  exact decodeAs?_eq_some_iff.mp hx

/-- Trying the kinds in order gives the value that the tree is the form of. -/
theorem untagged?_eq_some_iff {j : Json} {v : Value} : untagged? j = some v ↔ j = v.toJson := by
  refine ⟨eq_toJson_of_untagged?, ?_⟩
  rintro rfl
  obtain ⟨x, hx⟩ := Option.isSome_iff_exists.mp (read?_isSome_iff.mpr (rfl : v.kind = v.kind))
  have hof := read?_eq_some_iff.mp hx
  have hkind : (decodeAs? v.kind v.toJson).map (of v.kind) = some v := by
    rw [decodeAs?_eq_some_iff.mpr (congrArg toJson hof), Option.map_some, ← hof]
  cases hfound : untagged? v.toJson with
  | none =>
    have hnone := List.findSome?_eq_none_iff.mp hfound v.kind (ValueKind.mem_all _)
    rw [hkind] at hnone
    cases hnone
  | some w => rw [toJson_injective (eq_toJson_of_untagged? hfound)]

end ComponentKinds.Value
