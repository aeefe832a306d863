import ComponentKinds.Text.Plain
import ComponentKinds.Text.Quoted
import Mathlib.Data.List.Basic

/-!
# Items that end by themselves

An item that stands in a longer text can be told from what follows if the longer text
determines where it ends. A quoted string can, whatever follows, since the forms of characters
can and none of them begins with the closing quote. A number can if no digit follows it, and a
list in front of a closing character if its items can. So to tell what is written nothing has to
be known about the characters of the strings.
-/

namespace ComponentKinds.Text

section Numbers

/-- A text in front of which every number ends, since it does not begin with a digit. -/
def EndsNumber (rest : List Char) : Prop := ∀ d, rest.head? ≠ some (Nat.digitChar d)

/-- A number ends in front of a character that is no digit. -/
theorem endsNumber_cons {c : Char} (h : ∀ d, Nat.digitChar d ≠ c) (rest : List Char) :
    EndsNumber (c :: rest) := by
  intro d hd
  exact h d (Option.some.inj hd).symm

variable {b m n : Nat} {rest rest' : List Char}

private theorem toDigits_eq_append (hb : 1 < b) : Nat.toDigits b n =
    (if n < b then [] else Nat.toDigits b (n / b)) ++ [Nat.digitChar (n % b)] := by
  rw [Nat.toDigits_eq_if hb]
  split
  · next h => rw [Nat.mod_eq_of_lt h, List.nil_append]
  · rfl

/-- Every character of a numeral is a digit. -/
theorem exists_digitChar_of_mem_toDigits (hb : 1 < b) {c : Char} (h : c ∈ Nat.toDigits b n) :
    ∃ d, Nat.digitChar d = c := by
  induction n using Nat.strongRecOn with
  | ind n ih =>
    rw [toDigits_eq_append hb] at h
    rcases List.mem_append.mp h with hfront | hlast
    · split at hfront
      · cases hfront
      · next hge => exact ih (n / b) (Nat.div_lt_self (by omega) hb) hfront
    · exact ⟨n % b, (List.mem_singleton.mp hlast).symm⟩

private theorem digitChar_inj {i j : Nat} (hi : i < 16) (hj : j < 16)
    (h : Nat.digitChar i = Nat.digitChar j) : i = j := by
  have hall : ∀ i < 16, ∀ j < 16, Nat.digitChar i = Nat.digitChar j → i = j := by decide
  exact hall i hi j hj h

/-- Up to base 16, different numbers have different numerals. -/
theorem toDigits_inj (hb : 1 < b) (hb' : b ≤ 16) (h : Nat.toDigits b m = Nat.toDigits b n) :
    m = n := by
  induction m using Nat.strongRecOn generalizing n with
  | ind m ih =>
    rw [toDigits_eq_append hb, toDigits_eq_append (n := n) hb] at h
    obtain ⟨hfront, hlast⟩ := List.append_inj' h rfl
    have hdiv : m / b = n / b := by
      split at hfront <;> split at hfront
      · rw [Nat.div_eq_of_lt ‹m < b›, Nat.div_eq_of_lt ‹n < b›]
      · exact absurd hfront.symm Nat.toDigits_ne_nil
      · exact absurd hfront Nat.toDigits_ne_nil
      · exact ih (m / b) (Nat.div_lt_self (by omega) hb) hfront
    have hlt : ∀ k, k % b < 16 := fun k =>
      Nat.lt_of_lt_of_le (Nat.mod_lt k (Nat.zero_lt_of_lt hb)) hb'
    have hmod : m % b = n % b := digitChar_inj (hlt m) (hlt n) (List.singleton_inj.mp hlast)
    rw [← Nat.div_add_mod m b, hdiv, hmod, Nat.div_add_mod]

/-- A numeral is told from what follows if no digit does: what one of two numerals had more than the
other would begin what follows the other. -/
theorem toDigits_append_inj (hb : 1 < b) (hb' : b ≤ 16) (hrest : EndsNumber rest)
    (hrest' : EndsNumber rest')
    (h : Nat.toDigits b m ++ rest = Nat.toDigits b n ++ rest') : m = n ∧ rest = rest' := by
  have hnil : ∀ {k : Nat} {front more rest : List Char}, EndsNumber (more ++ rest) →
      Nat.toDigits b k = front ++ more → more = [] := by
    intro k front more rest hends hk
    cases more with
    | nil => rfl
    | cons c more =>
      have hmem : c ∈ Nat.toDigits b k := by simp [hk]
      obtain ⟨d, rfl⟩ := exists_digitChar_of_mem_toDigits hb hmem
      exact absurd rfl (hends d)
  rcases List.append_eq_append_iff.mp h with ⟨more, hn, rfl⟩ | ⟨more, hm, rfl⟩
  · obtain rfl := hnil hrest hn
    rw [List.append_nil] at hn
    exact ⟨toDigits_inj hb hb' hn.symm, rfl⟩
  · obtain rfl := hnil hrest' hm
    rw [List.append_nil] at hm
    exact ⟨toDigits_inj hb hb' hm, rfl⟩

/-- A minus sign begins the negative numbers and no others. -/
theorem head?_decimal_append (k : Int) : (decimal k ++ rest).head? = some '-' ↔ k < 0 := by
  unfold decimal
  split
  · next hneg => simp [hneg]
  · next hneg =>
    cases hd : Nat.toDigits 10 k.natAbs with
    | nil => exact absurd hd Nat.toDigits_ne_nil
    | cons c cs =>
      obtain ⟨d, rfl⟩ :=
        exists_digitChar_of_mem_toDigits (by decide) (hd ▸ List.mem_cons_self)
      simp [hneg, Nat.digitChar_ne '-' rfl]

/-- A number is told from what follows if no digit does. -/
theorem decimal_append_inj {i j : Int} (hrest : EndsNumber rest) (hrest' : EndsNumber rest')
    (h : decimal i ++ rest = decimal j ++ rest') : i = j ∧ rest = rest' := by
  have hsign : i < 0 ↔ j < 0 := by
    rw [← head?_decimal_append i, h, head?_decimal_append]
  unfold decimal at h
  by_cases hneg : i < 0
  · rw [if_pos hneg, if_pos (hsign.mp hneg)] at h
    obtain ⟨habs, heq⟩ :=
      toDigits_append_inj (by decide) (by decide) hrest hrest' (List.cons.inj h).2
    exact ⟨by omega, heq⟩
  · rw [if_neg hneg, if_neg (mt hsign.mpr hneg)] at h
    obtain ⟨habs, heq⟩ := toDigits_append_inj (by decide) (by decide) hrest hrest' h
    exact ⟨by omega, heq⟩

end Numbers

section Quotes

variable {rest rest' : List Char}

/-- The characters with an escape of their own, each with its letter. -/
def shortEscapes : List (Char × Char) :=
  [('\x00', '0'), ('\t', 't'), ('\n', 'n'), ('\r', 'r'), ('"', '"'), ('\\', '\\')]

private theorem shortEscapes_inj {c d letter : Char} (hc : (c, letter) ∈ shortEscapes)
    (hd : (d, letter) ∈ shortEscapes) : c = d := by
  have hall : ∀ x ∈ shortEscapes, ∀ y ∈ shortEscapes, x.2 = y.2 → x.1 = y.1 := by decide
  exact hall _ hc _ hd rfl

/-- A character between quotes has an escape of its own, is written by its code point, or stands
for itself; then it is neither of the two that have a meaning between quotes. -/
theorem quoteChar_cases (c : Char) :
    (∃ letter, (c, letter) ∈ shortEscapes ∧ quoteChar c = ['\\', letter]) ∨
      quoteChar c = '\\' :: 'u' :: '{' :: Nat.toDigits 16 c.toNat ++ ['}'] ∨
      quoteChar c = [c] ∧ c ≠ '"' ∧ c ≠ '\\' := by
  unfold quoteChar
  split
  case h_7 =>
    split
    · exact Or.inr (Or.inl rfl)
    · exact Or.inr (Or.inr ⟨rfl, ‹_›, ‹_›⟩)
  all_goals exact Or.inl ⟨_, by decide, rfl⟩

/-- The form of a character is told from what follows: unlike forms differ in their first character
or in the letter of the escape. -/
theorem quoteChar_append_inj {c d : Char} (h : quoteChar c ++ rest = quoteChar d ++ rest') :
    c = d ∧ rest = rest' := by
  have hletter : ∀ c, (c, 'u') ∉ shortEscapes := by simp [shortEscapes]
  rcases quoteChar_cases c with ⟨x, hx, hc⟩ | hc | ⟨hc, _, hraw⟩ <;>
    rcases quoteChar_cases d with ⟨y, hy, hd⟩ | hd | ⟨hd, _, hraw'⟩ <;>
    simp only [hc, hd, List.cons_append, List.nil_append, List.append_assoc, List.cons.injEq,
      true_and] at h
  · obtain ⟨rfl, heq⟩ := h
    exact ⟨shortEscapes_inj hx hy, heq⟩
  · exact absurd (h.1 ▸ hx) (hletter c)
  · exact absurd h.1.symm hraw'
  · exact absurd (h.1 ▸ hy) (hletter d)
  · have hends := endsNumber_cons (fun d => Nat.digitChar_ne (n := d) '}' rfl)
    obtain ⟨hcode, heq⟩ := toDigits_append_inj (by decide) (by decide) (hends _) (hends _) h
    exact ⟨Char.toNat_inj.mp hcode, (List.cons.inj heq).2⟩
  · exact absurd h.1.symm hraw'
  · exact absurd h.1 hraw
  · exact absurd h.1 hraw
  · exact h

/-- No form of a character begins with the closing quote. -/
theorem quoteChar_append_ne (c : Char) : quoteChar c ++ rest ≠ '"' :: rest' := by
  rcases quoteChar_cases c with ⟨x, _, hc⟩ | hc | ⟨hc, hquote, _⟩ <;> rw [hc] <;> simp [*]

/-- The characters between quotes are told from what follows the closing quote. -/
theorem quoteChars_append_inj {cs ds : List Char}
    (h : quoteChars cs ++ '"' :: rest = quoteChars ds ++ '"' :: rest') :
    cs = ds ∧ rest = rest' := by
  induction cs generalizing ds with
  | nil =>
    cases ds with
    | nil => exact ⟨rfl, (List.cons.inj h).2⟩
    | cons d ds =>
      rw [quoteChars_cons, List.append_assoc] at h
      exact absurd h.symm (quoteChar_append_ne d)
  | cons c cs ih =>
    rw [quoteChars_cons, List.append_assoc] at h
    cases ds with
    | nil => exact absurd h (quoteChar_append_ne c)
    | cons d ds =>
      rw [quoteChars_cons, List.append_assoc] at h
      obtain ⟨rfl, htail⟩ := quoteChar_append_inj h
      obtain ⟨rfl, heq⟩ := ih htail
      exact ⟨rfl, heq⟩

/-- A quoted string is told from what follows. -/
theorem quoted_append_inj {cs ds : List Char} (h : quoted cs ++ rest = quoted ds ++ rest') :
    cs = ds ∧ rest = rest' := by
  apply quoteChars_append_inj
  simpa [quoted] using h

end Quotes

section Lists

variable {α : Type} {item : α → List Char} {close : Char} {rest rest' : List Char}

/-- Two items that are written alike, where a number would end, only if they are the same and
the same text follows. -/
def Delimited (item : α → List Char) (x y : α) : Prop :=
  ∀ ⦃rest rest' : List Char⦄, EndsNumber rest → EndsNumber rest' →
    item x ++ rest = item y ++ rest' → x = y ∧ rest = rest'

/-- Items of a list, each behind a comma and a blank. -/
private def behind (item : α → List Char) (xs : List α) : List Char :=
  xs.flatMap fun x => ',' :: ' ' :: item x

private theorem endsNumber_behind (hclose : ∀ d, Nat.digitChar d ≠ close) (xs : List α) :
    EndsNumber (behind item xs ++ close :: rest) := by
  cases xs with
  | nil => exact endsNumber_cons hclose rest
  | cons x xs => exact endsNumber_cons (fun d => Nat.digitChar_ne ',' rfl) _

/-- The closing character is no comma, so it shows that no further item stands there. -/
private theorem behind_append_inj (hcomma : close ≠ ',') (hclose : ∀ d, Nat.digitChar d ≠ close)
    {xs ys : List α} (hitems : ∀ x y, (x, y) ∈ xs.zip ys → Delimited item x y)
    (h : behind item xs ++ close :: rest = behind item ys ++ close :: rest') :
    xs = ys ∧ rest = rest' := by
  induction xs generalizing ys with
  | nil =>
    cases ys with
    | nil => exact ⟨rfl, (List.cons.inj h).2⟩
    | cons y ys => exact absurd (List.cons.inj h).1 hcomma
  | cons x xs ih =>
    cases ys with
    | nil => exact absurd (List.cons.inj h).1.symm hcomma
    | cons y ys =>
      have hitem : item x ++ (behind item xs ++ close :: rest) =
          item y ++ (behind item ys ++ close :: rest') := by
        simpa [behind] using h
      obtain ⟨rfl, htail⟩ := hitems x y List.mem_cons_self (endsNumber_behind hclose xs)
        (endsNumber_behind hclose ys) hitem
      obtain ⟨rfl, heq⟩ := ih (fun x y hmem => hitems x y (List.mem_cons_of_mem _ hmem)) htail
      exact ⟨rfl, heq⟩

/-- A list is told from what follows behind a closing character, if the items at each place are
told from what follows them and an empty list is not taken for another. -/
theorem listed_append_inj (hcomma : close ≠ ',') (hclose : ∀ d, Nat.digitChar d ≠ close)
    {xs ys : List α} (hempty : xs = [] ↔ ys = [])
    (hitems : ∀ x y, (x, y) ∈ xs.zip ys → Delimited item x y)
    (h : listed item xs ++ close :: rest = listed item ys ++ close :: rest') :
    xs = ys ∧ rest = rest' := by
  apply behind_append_inj hcomma hclose hitems
  cases xs with
  | nil =>
    obtain rfl := hempty.mp rfl
    exact h
  | cons x xs =>
    cases ys with
    | nil => cases hempty.mpr rfl
    | cons y ys => exact congrArg (',' :: ' ' :: ·) h

end Lists

end ComponentKinds.Text
