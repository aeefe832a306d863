import ComponentKinds.Proofs.Except
import ComponentKinds.Proofs.Value.Forms

/-!
# Trees that are attribute values, and what is wrong with the others

The trees of each kind of value are written out here without the functions that read and
write them. Every other tree has exactly one fault; that of an array is its first item that
is not a string. Reading a tree gives the value that it denotes, or else its fault.
-/

namespace ComponentKinds

namespace Json

/-- The trees of attribute values: a truth value, a whole number in the range of 64 bits, a
string, or an array of nothing but strings. -/
inductive DenotesValue : Json → Value → Prop
  | bool (b : Bool) : DenotesValue (.bool b) (.bool b)
  | int {n : Int} (lower : Int64.minValue.toInt ≤ n) (upper : n ≤ Int64.maxValue.toInt) :
      DenotesValue (.num (.int n)) (.int (Int64.ofInt n))
  | string (s : String) : DenotesValue (.str s) (.string s)
  | strings (items : List String) : DenotesValue (.arr (items.map .str)) (.strings items)

/-- What is wrong with a tree that is no attribute value. -/
inductive HasFault : Json → Value.Fault → Prop
  | null : HasFault .null .null
  | object (members : List (String × Json)) : HasFault (.obj members) .object
  | beyond {n : Int} (outside : n < Int64.minValue.toInt ∨ Int64.maxValue.toInt < n) :
      HasFault (.num (.int n)) (.notInt64 (.int n))
  | float (x : Binary64) : HasFault (.num (.float x)) (.notInt64 (.float x))
  | item (strings : List String) {other : Json} (rest : List Json) (first : ∀ s, other ≠ .str s) :
      HasFault (.arr (strings.map .str ++ other :: rest)) (.item other)

/-- A tree denotes a value exactly if it is the form that the value is written in. -/
theorem denotesValue_iff {j : Json} {v : Value} : j.DenotesValue v ↔ j = v.toJson := by
  constructor
  · intro h
    cases h with
    | @int n lower upper =>
      rw [Int64.toInt_minValue] at lower
      rw [Int64.toInt_maxValue] at upper
      rw [Value.toJson, Int64.toInt_ofInt_of_le lower (by omega)]
    | _ => rfl
  · rintro rfl
    cases v with
    | bool b => exact .bool b
    | int i =>
      have hi := DenotesValue.int i.minValue_le_toInt i.toInt_le
      rw [Int64.ofInt_toInt] at hi
      exact hi
    | string s => exact .string s
    | strings items => exact .strings items

/-- A tree denotes one value at most. -/
theorem DenotesValue.unique {j : Json} {v w : Value} (hv : j.DenotesValue v)
    (hw : j.DenotesValue w) : v = w := by
  apply Value.toJson_injective
  rw [← denotesValue_iff.mp hv, ← denotesValue_iff.mp hw]

/-- What a tree denotes is known from one value that it denotes. -/
theorem DenotesValue.denotes_iff {j : Json} {v w : Value} (hv : j.DenotesValue v) :
    j.DenotesValue w ↔ w = v :=
  ⟨fun hw => hw.unique hv, fun heq => heq ▸ hv⟩

end Json

namespace Value

/-- Items are read exactly if all of them are strings. -/
theorem stringItems_eq_ok_iff {items : List Json} {strings : List String} :
    stringItems items = .ok strings ↔ items = strings.map .str := by
  induction items generalizing strings with
  | nil => simp [stringItems, eq_comm]
  | cons item rest ih =>
    cases item with
    | str s =>
      rw [stringItems, map_eq_ok_iff]
      cases strings <;> simp [ih, and_comm]
    | _ => cases strings <;> simp [stringItems]

/-- The fault of items is the first of them that is not a string. -/
theorem stringItems_eq_error_iff {items : List Json} {fault : Fault} :
    stringItems items = .error fault ↔ ∃ strings other rest,
      items = List.map Json.str strings ++ other :: rest ∧ (∀ s, other ≠ .str s) ∧
        .item other = fault := by
  induction items with
  | nil => simp [stringItems]
  | cons item rest ih =>
    by_cases hitem : ∃ s, item = .str s
    · obtain ⟨s, rfl⟩ := hitem
      rw [stringItems, map_eq_error_iff, ih]
      constructor
      · rintro ⟨strings, other, back, rfl, hother⟩
        exact ⟨s :: strings, other, back, rfl, hother⟩
      · rintro ⟨_ | ⟨t, strings⟩, other, back, hitems, hfirst, hfault⟩
        · exact absurd (List.cons.inj hitems).1.symm (hfirst s)
        · exact ⟨strings, other, back, (List.cons.inj hitems).2, hfirst, hfault⟩
    · rw [not_exists] at hitem
      have hread : stringItems (item :: rest) = .error (.item item) := by
        cases item with
        | str s => exact absurd rfl (hitem s)
        | _ => rfl
      rw [hread, Except.error.injEq]
      constructor
      · rintro rfl
        exact ⟨[], item, rest, rfl, hitem, rfl⟩
      · rintro ⟨_ | ⟨t, strings⟩, other, back, hitems, _, hfault⟩
        · rw [(List.cons.inj hitems).1]
          exact hfault
        · exact absurd (List.cons.inj hitems).1 (hitem t)

/-- A tree is read as the value that it denotes. -/
theorem ofJson_eq_ok_iff {j : Json} {v : Value} : ofJson j = .ok v ↔ j.DenotesValue v := by
  rw [Json.denotesValue_iff]
  cases j with
  | num number =>
    cases number with
    | int n =>
      rw [ofJson]
      cases hn : int64? n with
      | some i =>
        rw [int64?_eq_some_iff.mp hn]
        cases v <;> simp [toJson, Int64.toInt_inj]
      | none =>
        have hne : ∀ i : Int64, n ≠ i.toInt := by
          intro i heq
          rw [int64?_eq_some_iff.mpr heq] at hn
          cases hn
        cases v <;> simp [toJson, hne]
    | float x => cases v <;> simp [ofJson, toJson]
  | arr items =>
    rw [ofJson, map_eq_ok_iff]
    cases v <;> simp [toJson, stringItems_eq_ok_iff]
  | _ => cases v <;> simp [ofJson, toJson]

/-- There is no 64-bit integer exactly for the values beyond the range. -/
theorem int64?_eq_none_iff {n : Int} :
    int64? n = none ↔ n < Int64.minValue.toInt ∨ Int64.maxValue.toInt < n := by
  simp only [int64?, ite_eq_right_iff, reduceCtorEq, imp_false, not_and_or, Int.not_le]

/-- A tree is not read exactly if it has a fault, which is the one that is reported. -/
theorem ofJson_eq_error_iff {j : Json} {fault : Fault} :
    ofJson j = .error fault ↔ j.HasFault fault := by
  constructor
  · intro h
    cases j with
    | null =>
      cases h
      exact .null
    | bool b => cases h
    | num number =>
      cases number with
      | int n =>
        rw [ofJson] at h
        cases hn : int64? n with
        | some i =>
          rw [hn] at h
          cases h
        | none =>
          rw [hn] at h
          cases h
          exact .beyond (int64?_eq_none_iff.mp hn)
      | float x =>
        cases h
        exact .float x
    | str s => cases h
    | arr items =>
      rw [ofJson, map_eq_error_iff] at h
      obtain ⟨strings, other, rest, rfl, hfirst, rfl⟩ := stringItems_eq_error_iff.mp h
      exact .item strings rest hfirst
    | obj members =>
      cases h
      exact .object members
  · intro h
    cases h with
    | beyond outside => rw [ofJson, int64?_eq_none_iff.mpr outside]
    | @item strings other rest hfirst =>
      rw [ofJson, map_eq_error_iff]
      exact stringItems_eq_error_iff.mpr ⟨strings, other, rest, rfl, hfirst, rfl⟩
    | _ => rfl

end Value

namespace Json

variable {j : Json} {fault : Value.Fault}

/-- A tree with a fault denotes no value. -/
theorem HasFault.not_denotes (h : j.HasFault fault) (v : Value) : ¬j.DenotesValue v := by
  intro hv
  have hread := Value.ofJson_eq_ok_iff.mpr hv
  rw [Value.ofJson_eq_error_iff.mpr h] at hread
  cases hread

/-- A tree has one fault at most. -/
theorem HasFault.unique {other : Value.Fault} (h : j.HasFault fault) (hother : j.HasFault other) :
    fault = other := by
  have hread := Value.ofJson_eq_error_iff.mpr hother
  rw [Value.ofJson_eq_error_iff.mpr h] at hread
  exact Except.error.inj hread

end Json

end ComponentKinds
