import ComponentKinds.Component
import ComponentKinds.Proofs.Keyed.Ordered
import ComponentKinds.Proofs.Text.Delimited
import Mathlib.Data.List.Forall2

/-!
# What the text of a component tells

The first character of the text of a value shows its kind, and where the text ends can be told
from it unless the value is an integer with a digit behind it. In the text of a component no
digit stands behind a value. So components of one kind with the same attributes defined have the
same text only if they have the same values. The names of the attributes are written as they
are, and have to be known, since a name may itself look like a value and the next name.
-/

namespace ComponentKinds

namespace Value

variable {v w : Value} {rest rest' : List Char}

/-- The kind of the values whose text begins with a character. -/
def kindAt : Char → ValueKind
  | '"' => .string
  | '[' => .strings
  | 't' => .bool
  | 'f' => .bool
  | _ => .int

private theorem kindAt_digit {c : Char} (hc : c.isDigit = true ∨ c = '-') : kindAt c = .int := by
  unfold kindAt
  split
  case h_5 => rfl
  all_goals rcases hc with hc | hc <;> cases hc

/-- The text of a value begins with a character that shows its kind. -/
theorem exists_chars_eq_cons (v : Value) : ∃ c cs, v.chars = c :: cs ∧ kindAt c = v.kind := by
  cases v with
  | bool b => cases b <;> exact ⟨_, _, rfl, rfl⟩
  | int i =>
    obtain ⟨c, cs, heq, hc⟩ := Text.decimal_eq_cons i.toInt
    exact ⟨c, cs, heq, kindAt_digit hc⟩
  | string s => exact ⟨_, _, rfl, rfl⟩
  | strings items => exact ⟨_, _, rfl, rfl⟩

/-- Values that are written alike are of the same kind. -/
theorem kind_eq_of_append (h : v.chars ++ rest = w.chars ++ rest') : v.kind = w.kind := by
  obtain ⟨c, cs, hv, hc⟩ := v.exists_chars_eq_cons
  obtain ⟨d, ds, hw, hd⟩ := w.exists_chars_eq_cons
  rw [hv, hw] at h
  rw [← hc, ← hd, (List.cons.inj h).1]

private theorem truth_append_inj {a b : Bool} (h : Text.truth a ++ rest = Text.truth b ++ rest') :
    a = b ∧ rest = rest' := by
  revert h
  cases a <;> cases b <;> simp [Text.truth]

private theorem quoted_items_append_inj {items others : List String}
    (h : Text.listed (fun item => Text.quoted item.toList) items ++ ']' :: rest =
      Text.listed (fun item => Text.quoted item.toList) others ++ ']' :: rest') :
    items = others ∧ rest = rest' := by
  have hempty : items = [] ↔ others = [] := by
    cases items <;> cases others <;> simp [Text.listed, Text.quoted] at h ⊢
  refine Text.listed_append_inj (by decide) (fun d => Nat.digitChar_ne ']' rfl) hempty ?_ h
  intro x y _ r r' _ _ heq
  obtain ⟨hchars, hrest⟩ := Text.quoted_append_inj heq
  exact ⟨String.toList_inj.mp hchars, hrest⟩

/-- A value is told from what follows if no digit does. -/
theorem chars_append_inj (hrest : Text.EndsNumber rest) (hrest' : Text.EndsNumber rest')
    (h : v.chars ++ rest = w.chars ++ rest') : v = w ∧ rest = rest' := by
  have hkind := kind_eq_of_append h
  cases v with
  | bool a =>
    cases w with
    | bool b =>
      obtain ⟨rfl, heq⟩ := truth_append_inj h
      exact ⟨rfl, heq⟩
    | _ => cases hkind
  | int i =>
    cases w with
    | int j =>
      obtain ⟨hint, heq⟩ := Text.decimal_append_inj hrest hrest' h
      exact ⟨congrArg Value.int (Int64.toInt_inj.mp hint), heq⟩
    | _ => cases hkind
  | string s =>
    cases w with
    | string t =>
      obtain ⟨hchars, heq⟩ := Text.quoted_append_inj h
      exact ⟨congrArg Value.string (String.toList_inj.mp hchars), heq⟩
    | _ => cases hkind
  | strings items =>
    cases w with
    | strings others =>
      have hitems := (List.cons.inj h).2
      simp only [List.append_eq, List.append_assoc, List.cons_append, List.nil_append] at hitems
      obtain ⟨rfl, heq⟩ := quoted_items_append_inj hitems
      exact ⟨rfl, heq⟩
    | _ => cases hkind

/-- Different values have different texts. -/
theorem text_inj (h : v.text = w.text) : v = w := by
  have hends : Text.EndsNumber [] := fun _ => nofun
  have hchars : v.chars ++ [] = w.chars ++ [] := by
    rw [List.append_nil, List.append_nil, String.ofList_injective h]
  exact (chars_append_inj hends hends hchars).1

end Value

namespace Component

variable {c d : Component}

/-- Under the same name, entries are told from what follows if no digit does. -/
theorem delimited_entryChars {x y : String × Value} (h : x.1 = y.1) :
    Text.Delimited entryChars x y := by
  intro rest rest' hrest hrest' heq
  simp only [entryChars, h, List.append_assoc, List.append_cancel_left_eq, List.cons_append,
    List.cons.injEq, true_and] at heq
  obtain ⟨hvalue, heq⟩ := Value.chars_append_inj hrest hrest' heq
  exact ⟨Prod.ext h hvalue, heq⟩

/-- The attributes that are defined are the keys of the entries. -/
theorem isDefined_iff {name : String} :
    c.isDefined name = true ↔ name ∈ c.attributes.entries.map Prod.fst :=
  Entries.find?_isSome_iff

/-- Entries with the same names in the same order have the same text only if they are equal. -/
theorem entries_eq_of_text {xs ys : Entries Value} (hnames : xs.map Prod.fst = ys.map Prod.fst)
    (h : Text.listed entryChars xs ++ ['}'] = Text.listed entryChars ys ++ ['}']) : xs = ys := by
  have hpaired : List.Forall₂ (fun x y => x.1 = y.1) xs ys := by
    rw [← List.forall₂_map_right_iff, ← List.forall₂_map_left_iff, List.forall₂_eq_eq_eq]
    exact hnames
  have hempty : xs = [] ↔ ys = [] := by
    rw [← List.map_eq_nil_iff (f := Prod.fst), hnames, List.map_eq_nil_iff]
  refine (Text.listed_append_inj (by decide) (fun d => Nat.digitChar_ne '}' rfl) hempty ?_ h).1
  intro x y hmem
  exact delimited_entryChars ((List.forall₂_iff_zip.mp hpaired).2 hmem)

/-- Components of one kind, with the same attributes defined, have the same text only if they
have the same attributes. -/
theorem attributes_eq_of_text (kind_eq : c.kind = d.kind)
    (defined : ∀ name, c.isDefined name = d.isDefined name) (h : c.text = d.text) :
    c.attributes = d.attributes := by
  have hnames := c.attributes.sorted.keys_eq d.attributes.sorted fun name => by
    rw [← isDefined_iff, ← isDefined_iff, defined name]
  have hchars : c.chars = d.chars := String.ofList_injective h
  simp only [chars, kind_eq, List.append_assoc, List.append_cancel_left_eq, List.cons_append,
    List.cons.injEq, true_and] at hchars
  have hentries := entries_eq_of_text hnames hchars
  exact Keyed.ext fun name => congrArg (Entries.find? name) hentries

/-- The text of a value tells it from every other value. The text of a component tells, with its
kind and the names of its defined attributes, the value of each: components of one kind with the
same attributes defined have the same text exactly if all their values are the same, whatever
characters stand in the kind, in the names and in the values. -/
theorem texts_tell_values :
    (∀ v w : Value, v.text = w.text ↔ v = w) ∧
      ∀ c d : Component, c.kind = d.kind → (∀ name, c.isDefined name = d.isDefined name) →
        (c.text = d.text ↔ ∀ name, c.value? name = d.value? name) := by
  refine ⟨fun v w => ⟨Value.text_inj, congrArg Value.text⟩, fun c d kind_eq defined => ?_⟩
  constructor
  · intro h name
    rw [value?, attributes_eq_of_text kind_eq defined h, value?]
  · intro hvalues
    have hattributes : c.attributes = d.attributes := Keyed.ext hvalues
    rw [text, chars, kind_eq, hattributes, text, chars]

/-- Components whose names and strings hold separators and quotes: a list of two strings, and a
list of one that looks like both. -/
theorem texts_tell_values_separators :
    let c : Component := ⟨"executor", "graph=",
      .ofList [("a", .strings ["x", "y"]), ("b=1, ", .string "5")]⟩
    let d : Component := ⟨"executor", "graph=",
      .ofList [("a", .strings ["x\", \"y"]), ("b=1, ", .string "5")]⟩
    let e : Component := { c with family := "runtime" }
    (c.kind = d.kind ∧ ∀ name, c.isDefined name = d.isDefined name) ∧ c.text ≠ d.text ∧
      c.text = e.text ∧ (Value.string "5").text ≠ (Value.int 5).text := by
  intro c d e
  have hkeys : c.attributes.entries.map Prod.fst = d.attributes.entries.map Prod.fst := by decide
  have defined : ∀ name, c.isDefined name = d.isDefined name := by
    intro name
    rw [Bool.eq_iff_iff, isDefined_iff, isDefined_iff, hkeys]
  obtain ⟨hvalue, hcomponent⟩ := texts_tell_values
  refine ⟨⟨rfl, defined⟩, ?_, (hcomponent c e rfl fun _ => rfl).mpr fun _ => rfl, ?_⟩
  · intro h
    have ha := (hcomponent c d rfl defined).mp h "a"
    revert ha
    decide
  · exact fun h => nomatch (hvalue _ _).mp h

/-- Where the names are not known, a name may take in a value and the name behind it. -/
example : (⟨"executor", "graph", .ofList [("a", .int 1), ("b", .int 2)]⟩ : Component).text =
    (⟨"executor", "graph", .ofList [("a=1, b", .int 2)]⟩ : Component).text := by
  decide

end Component

end ComponentKinds
