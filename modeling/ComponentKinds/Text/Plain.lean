/-!
# Plain text

The text of integers and truth values, of lists whose items are separated by a comma and a
blank, and what is left of a text behind its front. All text is built from characters;
strings are made at the end.
-/

namespace ComponentKinds.Text

/-- The decimal digits of an integer, after a sign if it is negative. -/
def decimal (n : Int) : List Char :=
  if n < 0 then '-' :: Nat.toDigits 10 n.natAbs else Nat.toDigits 10 n.natAbs

/-- The text of an integer begins with a digit or a minus sign. -/
theorem decimal_eq_cons (n : Int) :
    ∃ c cs, decimal n = c :: cs ∧ (c.isDigit = true ∨ c = '-') := by
  unfold decimal
  split
  · exact ⟨_, _, rfl, Or.inr rfl⟩
  · cases hd : Nat.toDigits 10 n.natAbs with
    | nil => exact absurd hd Nat.toDigits_ne_nil
    | cons c cs =>
      exact ⟨c, cs, rfl, Or.inl (Nat.isDigit_of_mem_toDigits (by decide) (by decide)
        (hd ▸ List.mem_cons_self))⟩

/-- A truth value in words. -/
def truth : Bool → List Char
  | true => ['t', 'r', 'u', 'e']
  | false => ['f', 'a', 'l', 's', 'e']

/-- What follows the front of a text, if the text starts with it. -/
def after? : (front text : List Char) → Option (List Char)
  | [], text => some text
  | c :: front, d :: text => if c = d then after? front text else none
  | _ :: _, [] => none

/-- The rest of a text makes it up together with the front. -/
theorem after?_eq_some_iff {front text rest : List Char} :
    after? front text = some rest ↔ text = front ++ rest := by
  induction front generalizing text with
  | nil => simp [after?, eq_comm]
  | cons c front ih =>
    cases text with
    | nil => simp [after?]
    | cons d text =>
      by_cases h : c = d
      · simp [after?, h, ih]
      · simp [after?, h, Ne.symm h]

/-- The items of a list in text, each after the first behind a comma and a blank. -/
def listed {α : Type} (item : α → List Char) : List α → List Char
  | [] => []
  | first :: rest => item first ++ rest.flatMap fun x => ',' :: ' ' :: item x

end ComponentKinds.Text
