import ComponentKinds.Text.Plain

/-!
# Positions at the end of a text

A message may end with the place in a source text that it is about, as in
`... at line 3 column 14`. The place is no part of what the message says, and is taken away
once.
-/

namespace ComponentKinds.Text

/-- A reversed text without the digits it starts with, of which there must be one, and
without the reversed label that must follow. -/
def dropLabelled? (label reversed : List Char) : Option (List Char) :=
  if (reversed.takeWhile Char.isDigit).isEmpty then none
  else after? label.reverse (reversed.dropWhile Char.isDigit)

/-- A text without the position that it ends with, if it does. Its numbers may have any number of
digits here; a reader that takes them for machine words leaves a position with a number from
`2 ^ 64` on where it stands. -/
def withoutPosition (text : String) : String :=
  let reversed := text.toList.reverse
  match dropLabelled? " column ".toList reversed >>= dropLabelled? " at line ".toList with
  | some rest => String.ofList rest.reverse
  | none => text

/-- A text that consists of another one and a position behind it. -/
def Positioned (text front : String) : Prop :=
  ∃ line column : List Char, line ≠ [] ∧ column ≠ [] ∧ line.all Char.isDigit = true ∧
    column.all Char.isDigit = true ∧
    text.toList = front.toList ++ " at line ".toList ++ line ++ " column ".toList ++ column

/-- Where a label ends with a blank, all digits at the start are dropped, and the label behind
them. -/
theorem dropLabelled?_eq_some_iff {front reversed rest : List Char} :
    dropLabelled? (front ++ [' ']) reversed = some rest ↔
      ∃ digits, digits ≠ [] ∧ digits.all Char.isDigit = true ∧
        reversed = digits ++ ((front ++ [' ']).reverse ++ rest) := by
  have hsplit : reversed.takeWhile Char.isDigit ++ reversed.dropWhile Char.isDigit = reversed :=
    List.takeWhile_append_dropWhile
  unfold dropLabelled?
  constructor
  · intro h
    split at h
    · cases h
    · next hne =>
      rw [after?_eq_some_iff] at h
      refine ⟨reversed.takeWhile Char.isDigit, mt List.isEmpty_iff.mpr hne, List.all_takeWhile, ?_⟩
      rw [← h, hsplit]
  · rintro ⟨digits, hne, hdigits, rfl⟩
    have hblank : Char.isDigit ' ' = false := by decide
    have htake : (digits ++ ((front ++ [' ']).reverse ++ rest)).takeWhile Char.isDigit =
        digits := by
      rw [List.takeWhile_append_of_pos (List.all_eq_true.mp hdigits)]
      simp [hblank]
    have hdrop : (digits ++ ((front ++ [' ']).reverse ++ rest)).dropWhile Char.isDigit =
        (front ++ [' ']).reverse ++ rest := by
      rw [List.dropWhile_append_of_pos (List.all_eq_true.mp hdigits)]
      simp [hblank]
    rw [htake, hdrop, if_neg (mt List.isEmpty_iff.mp hne)]
    exact after?_eq_some_iff.mpr rfl

/-- Both labels are dropped from a reversed text exactly if a position ends the text. -/
private theorem dropLabelled?_eq_some_iff_positioned {text front : String} :
    (dropLabelled? " column ".toList text.toList.reverse >>= dropLabelled? " at line ".toList) =
      some front.toList.reverse ↔ Positioned text front := by
  have hcolumn : " column ".toList = " column".toList ++ [' '] := rfl
  have hline : " at line ".toList = " at line".toList ++ [' '] := rfl
  simp only [bind, Option.bind_eq_some_iff, hcolumn, hline, dropLabelled?_eq_some_iff]
  constructor
  · rintro ⟨_, ⟨column, hcolumn, hcolumns, htext⟩, line, hline, hlines, rfl⟩
    refine ⟨line.reverse, column.reverse, mt List.reverse_eq_nil_iff.mp hline,
      mt List.reverse_eq_nil_iff.mp hcolumn, List.all_reverse.trans hlines,
      List.all_reverse.trans hcolumns, ?_⟩
    have hreversed := congrArg List.reverse htext
    simpa using hreversed
  · rintro ⟨line, column, hline, hcolumn, hlines, hcolumns, htext⟩
    refine ⟨_, ⟨column.reverse, mt List.reverse_eq_nil_iff.mp hcolumn,
      List.all_reverse.trans hcolumns, ?_⟩, line.reverse, mt List.reverse_eq_nil_iff.mp hline,
      List.all_reverse.trans hlines, rfl⟩
    rw [htext]
    simp

/-- A text loses the position at its end, if it has one, and is kept otherwise. -/
theorem withoutPosition_eq_iff {text rest : String} :
    withoutPosition text = rest ↔
      Positioned text rest ∨ text = rest ∧ ∀ front, ¬Positioned text front := by
  simp only [← dropLabelled?_eq_some_iff_positioned, withoutPosition]
  cases dropLabelled? " column ".toList text.toList.reverse >>=
    dropLabelled? " at line ".toList with
  | none => simp
  | some reversed =>
    have hfront : ∀ front : String,
        reversed = front.toList.reverse ↔ String.ofList reversed.reverse = front := by
      intro front
      rw [← String.toList_inj, String.toList_ofList, List.reverse_eq_iff]
    simp only [Option.some.injEq, hfront]
    constructor
    · exact Or.inl
    · rintro (h | ⟨_, h⟩)
      · exact h
      · exact absurd rfl (h _)

end ComponentKinds.Text
