import ComponentKinds.Proofs.Value.Texts
import Mathlib.Data.List.TakeWhile

/-!
# What follows an array or object

An array or object ends with its bracket. So the outline of a text that is one is also that of
the text with a suffix, and what the suffix is decides only whether the outline ends the text:
a blank suffix has no tokens, and any other has one.
-/

namespace ComponentKinds.Json

namespace Numeral

variable {cs digits left : List Char}

/-- Digits that something follows are the same with a suffix. -/
theorem digits?_append (h : digits? cs = some (digits, left)) (hleft : left ≠ [])
    (more : List Char) : digits? (cs ++ more) = some (digits, left ++ more) := by
  have hsame : ∀ l : List Char, l.dropWhile Char.isDigit ≠ [] →
      (l ++ more).takeWhile Char.isDigit = l.takeWhile Char.isDigit ∧
      (l ++ more).dropWhile Char.isDigit = l.dropWhile Char.isDigit ++ more := by
    intro l hl
    induction l with
    | nil => exact absurd rfl hl
    | cons c rest ih =>
      by_cases hc : c.isDigit = true
      · rw [List.dropWhile_cons_of_pos hc] at hl
        obtain ⟨htake, hdrop⟩ := ih hl
        simp [hc, htake, hdrop]
      · simp [hc]
  unfold digits? at h ⊢
  split at h
  · cases h
  · next hsome =>
    cases h
    rw [(hsame cs hleft).1, (hsame cs hleft).2, if_neg hsome]

private theorem leading?_append (h : leading? cs = some (digits, left)) (hleft : left ≠ [])
    (more : List Char) : leading? (cs ++ more) = some (digits, left ++ more) := by
  unfold leading? at h ⊢
  split at h
  · cases h
  · next hzero =>
    rw [digits?_append h hleft]
    split
    · next heq =>
      cases heq
      exact absurd h (hzero _ _ _)
    · rfl

private theorem fraction?_append (h : fraction? cs = some (digits, left)) (hleft : left ≠ [])
    (more : List Char) : fraction? (cs ++ more) = some (digits, left ++ more) := by
  unfold fraction? at h
  split at h
  · exact digits?_append h hleft more
  · next hpoint =>
    cases h
    obtain ⟨c, rest, rfl⟩ := List.exists_cons_of_ne_nil hleft
    rw [List.cons_append, fraction?]
    rintro _ ⟨⟩
    exact hpoint rest rfl

private theorem signedDigits?_append {negative : Bool} {value : Option Int}
    (h : signedDigits? negative cs = some (value, left)) (hleft : left ≠ []) (more : List Char) :
    signedDigits? negative (cs ++ more) = some (value, left ++ more) := by
  obtain ⟨⟨digits, _⟩, hdigits, heq⟩ := Option.map_eq_some_iff.mp h
  cases heq
  rw [signedDigits?, digits?_append hdigits hleft]
  rfl

private theorem exponent?_append {value : Option Int} (h : exponent? cs = some (value, left))
    (hleft : left ≠ []) (more : List Char) :
    exponent? (cs ++ more) = some (value, left ++ more) := by
  have hsigned : ∀ {cs : List Char}, signedExponent? cs = some (value, left) →
      signedExponent? (cs ++ more) = some (value, left ++ more) := by
    intro cs h
    unfold signedExponent? at h
    split at h
    · exact signedDigits?_append h hleft more
    · exact signedDigits?_append h hleft more
    · next hminus hplus =>
      cases cs with
      | nil => cases h
      | cons c rest =>
        rw [List.cons_append, signedExponent?]
        · exact signedDigits?_append h hleft more
        · rintro _ ⟨⟩
          exact hminus rest rfl
        · rintro _ ⟨⟩
          exact hplus rest rfl
  unfold exponent? at h
  split at h
  · exact hsigned h
  · exact hsigned h
  · next hlower hupper =>
    cases h
    obtain ⟨c, rest, rfl⟩ := List.exists_cons_of_ne_nil hleft
    rw [List.cons_append, exponent?]
    · rintro _ ⟨⟩
      exact hlower rest rfl
    · rintro _ ⟨⟩
      exact hupper rest rfl

/-- A numeral that something follows is the same with a suffix, since each of its parts is followed
by something then. -/
theorem scan_append {n : Numeral} (h : scan cs = some (n, left)) (hleft : left ≠ [])
    (more : List Char) : scan (cs ++ more) = some (n, left ++ more) := by
  have hunsigned : ∀ {negative : Bool} {cs : List Char},
      unsigned? negative cs = some (n, left) →
      unsigned? negative (cs ++ more) = some (n, left ++ more) := by
    intro negative cs h
    simp only [unsigned?, bind, Option.bind_eq_some_iff, Prod.exists] at h
    obtain ⟨leading, afterLeading, hleading, fraction, afterFraction, hfraction, exponent, _,
      hexponent, heq⟩ := h
    cases heq
    have hfractionEnd : afterFraction ≠ [] := by
      rintro rfl
      cases hexponent
      exact hleft rfl
    have hleadingEnd : afterLeading ≠ [] := by
      rintro rfl
      cases hfraction
      exact hfractionEnd rfl
    simp only [unsigned?, leading?_append hleading hleadingEnd,
      fraction?_append hfraction hfractionEnd, exponent?_append hexponent hleft, bind,
      Option.bind_some]
    rfl
  unfold scan at h
  split at h
  · exact hunsigned h
  · next hminus =>
    cases cs with
    | nil => cases h
    | cons c rest =>
      rw [List.cons_append, scan]
      · exact hunsigned h
      · rintro _ ⟨⟩
        exact hminus rest rfl

end Numeral

namespace Piece

/-- A piece that is put in front leaves the text after the literal. -/
private theorem map_prepend_eq_some {piece : Piece} {scanned : Option (List Piece × List Char)}
    {pieces : List Piece} {left : List Char}
    (h : scanned.map (prepend piece) = some (pieces, left)) :
    ∃ rest, scanned = some (rest, left) ∧ piece :: rest = pieces := by
  obtain ⟨⟨rest, _⟩, hscanned, heq⟩ := Option.map_eq_some_iff.mp h
  cases heq
  exact ⟨rest, hscanned, rfl⟩

/-- A literal is the same with a suffix. -/
theorem scan_append {cs left : List Char} {pieces : List Piece} (h : scan cs = some (pieces, left))
    (more : List Char) : scan (cs ++ more) = some (pieces, left ++ more) := by
  fun_induction scan cs generalizing pieces left with
  | case1 => cases h
  | case2 rest =>
    cases h
    rfl
  | case3 a b c d rest value hvalue ih =>
    obtain ⟨later, hrest, rfl⟩ := map_prepend_eq_some h
    exact (scan_unit hvalue (rest ++ more)).trans (by rw [ih hrest]; rfl)
  | case4 => cases h
  | case5 letter rest hunit c hc ih =>
    obtain ⟨later, hrest, rfl⟩ := map_prepend_eq_some h
    exact (scan_short hc (rest ++ more)).trans (by rw [ih hrest]; rfl)
  | case6 => cases h
  | case7 => cases h
  | case8 c rest hquote hunit hescape hc ih =>
    obtain ⟨later, hrest, rfl⟩ := map_prepend_eq_some h
    have hbackslash : c ≠ '\\' := by
      rintro rfl
      cases rest with
      | nil => cases hrest
      | cons letter rest => exact hescape letter rest rfl rfl
    have hnext := scan_char hquote hbackslash (Nat.le_of_not_lt hc) (rest ++ more)
    exact hnext.trans (by rw [ih hrest]; rfl)

end Piece

namespace Token

/-- A token is the same with a suffix. Behind a numeral there must be something already, so that
the suffix cannot go on with it. -/
theorem next_append {c : Char} {rest left : List Char} {token : Token}
    (h : next c rest = (token, left)) (hbroken : token ≠ .broken)
    (hends : left = [] → ∀ n, token ≠ .number n) (more : List Char) :
    next c (rest ++ more) = (token, left ++ more) := by
  have hkeyword : ∀ {letters : List Char} {word : Token},
      keyword letters word rest = (token, left) →
      keyword letters word (rest ++ more) = (token, left ++ more) := by
    intro letters word h
    unfold keyword at h ⊢
    split at h
    · next hafter =>
      cases h
      have hmore : Text.after? letters (rest ++ more) = some (left ++ more) := by
        rw [Text.after?_eq_some_iff, Text.after?_eq_some_iff.mp hafter, List.append_assoc]
      rw [hmore]
    · cases h
      exact absurd rfl hbroken
  unfold next at h ⊢
  split at h
  case h_7 | h_8 | h_9 => exact hkeyword h
  case h_10 =>
    split at h
    · next hscan =>
      cases h
      simp only [Piece.scan_append hscan]
    · cases h
      exact absurd rfl hbroken
  case h_11 =>
    split at h
    · next numeral _ hscan =>
      cases h
      have hleft : left ≠ [] := fun hnil => hends hnil numeral rfl
      simp only [← List.cons_append, Numeral.scan_append hscan hleft]
    · cases h
      exact absurd rfl hbroken
  all_goals
    cases h
    rfl

/-- Behind its blanks a text ends, starts with a token, or is broken. -/
theorem ofChars_cases (cs : List Char) :
    (cs.dropWhile isBlank = [] ∧ ofChars cs = []) ∨
    (∃ c rest token left, cs.dropWhile isBlank = c :: rest ∧ isBlank c = false ∧
      next c rest = (token, left) ∧ token ≠ .broken ∧ ofChars cs = token :: ofChars left) ∨
    cs.dropWhile isBlank ≠ [] ∧ ofChars cs = [.broken] := by
  rw [← ofChars_dropWhile cs]
  cases hdrop : cs.dropWhile isBlank with
  | nil => exact Or.inl ⟨rfl, rfl⟩
  | cons c rest =>
    have hblank := isBlank_of_dropWhile hdrop
    obtain ⟨token, left, hnext⟩ : ∃ token left, next c rest = (token, left) := ⟨_, _, rfl⟩
    by_cases hbroken : token = .broken
    · rw [hbroken] at hnext
      exact Or.inr (Or.inr ⟨List.cons_ne_nil c rest, ofChars_broken hblank hnext⟩)
    · exact Or.inr (Or.inl ⟨c, rest, token, left, rfl, hblank, hnext, hbroken,
        ofChars_cons hblank hbroken hnext⟩)

/-- Only a blank text has no tokens. -/
theorem ofChars_eq_nil_iff {cs : List Char} : ofChars cs = [] ↔ cs.all isBlank = true := by
  rw [List.all_eq_true, ← List.dropWhile_eq_nil_iff]
  rcases ofChars_cases cs with ⟨hdrop, htokens⟩ | ⟨c, rest, token, left, hdrop, -, -, -, htokens⟩ |
    ⟨hdrop, htokens⟩
  · exact iff_of_true htokens hdrop
  · rw [htokens, hdrop]
    exact iff_of_false (List.cons_ne_nil _ _) (List.cons_ne_nil _ _)
  · rw [htokens]
    exact iff_of_false (List.cons_ne_nil _ _) hdrop

/-- The tokens of a text are followed by those of a suffix, unless they are broken or end with a
numeral. What is left behind a token is shorter, so that the induction is on the length. -/
theorem ofChars_append {cs : List Char} (hbroken : .broken ∉ ofChars cs)
    (hends : ∀ n, (ofChars cs).getLast? ≠ some (.number n)) (more : List Char) :
    ofChars (cs ++ more) = ofChars cs ++ ofChars more := by
  induction hlength : cs.length using Nat.strongRecOn generalizing cs with
  | ind length ih =>
    rw [← ofChars_dropWhile (cs ++ more), List.dropWhile_append]
    rcases ofChars_cases cs with ⟨hdrop, htokens⟩ |
      ⟨c, rest, token, left, hdrop, hblank, hnext, hwhole, htokens⟩ | ⟨-, htokens⟩
    · rw [hdrop, htokens]
      exact ofChars_dropWhile more
    · rw [htokens] at hbroken hends
      have hends' : left = [] → ∀ n, token ≠ .number n := by
        rintro rfl n rfl
        exact hends n rfl
      have hmore := next_append hnext hwhole hends' more
      have hshorter : left.length < length := by
        have hleft := length_of_next hnext
        have hsuffix := (List.dropWhile_sublist isBlank (l := cs)).length_le
        rw [hdrop, List.length_cons] at hsuffix
        omega
      have hlater : ofChars (left ++ more) = ofChars left ++ ofChars more := by
        refine ih left.length hshorter (fun hmem => ?_) (fun n hlast => ?_) rfl
        · exact hbroken (List.mem_cons_of_mem _ hmem)
        · apply hends n
          rw [List.getLast?_cons, hlast]
          rfl
      rw [hdrop, htokens, List.isEmpty_cons, if_neg Bool.false_ne_true, List.cons_append,
        ofChars_cons hblank hwhole hmore, hlater, List.cons_append]
    · rw [htokens] at hbroken
      exact absurd List.mem_cons_self hbroken

end Token

namespace Outline

/-- What is read at the front of tokens is a leaf, an array or an object. -/
theorem read_eq_some_iff {steps : Nat} {tokens rest : List Token} {o : Outline} :
    read (steps + 1) tokens = (o, some rest) ↔
      (∃ token, leaf? token = some o ∧ tokens = token :: rest) ∨
      (∃ body items, tokens = .arrayOpen :: body ∧ o = .array items ∧
        readItems steps true body = (items, some rest)) ∨
      ∃ body members, tokens = .objectOpen :: body ∧ o = .object members ∧
        readMembers steps true body = (members, some rest) := by
  cases tokens with
  | nil => simp [read]
  | cons head tail =>
    cases head <;> simp [read, leaf?, Prod.ext_iff, eq_comm]

/-- Members that do not break off are those up to the end of the object, or else a member and
those after it. -/
theorem readMembers_eq_some_iff {steps : Nat} {first : Bool} {tokens rest : List Token}
    {members : Members} : readMembers (steps + 1) first tokens = (members, some rest) ↔
      (tokens = .objectClose :: rest ∧ members = .closed) ∨
      ∃ pieces body value between tail, (∀ left, tokens ≠ .objectClose :: left) ∧
        entry first tokens = some (.string pieces :: .colon :: body) ∧
        read steps body = (value, some between) ∧
        readMembers steps false between = (tail, some rest) ∧
        members = .member (.string pieces) value tail := by
  constructor
  · intro h
    rw [readMembers.eq_def] at h
    split at h
    · next heq => cases heq
    · cases h
      exact Or.inl ⟨rfl, rfl⟩
    · next hsteps hopen =>
      cases hsteps
      split at h
      · cases h
      · next pieces body hentry =>
        split at h
        · cases h
        · next value between hread =>
          obtain ⟨hmembers, hleft⟩ := Prod.mk.inj h
          refine Or.inr ⟨pieces, body, value, between, _, hopen, hentry, hread, ?_, hmembers.symm⟩
          exact Prod.ext rfl hleft
      · cases h
  · rintro (⟨rfl, rfl⟩ | ⟨pieces, body, value, between, tail, hopen, hentry, hread, htail, rfl⟩)
    · rfl
    · rw [readMembers_of_read hopen hentry hread, htail]

/-- Nothing is read where there are no tokens. -/
theorem ne_nil_of_read {steps : Nat} {tokens rest : List Token} {o : Outline}
    (h : read steps tokens = (o, some rest)) : tokens ≠ [] := by
  rintro rfl
  cases steps <;> cases h

/-- A suffix does not close an array or object that is open. -/
theorem append_ne_close {close : Token} {first : Bool} {tokens body : List Token}
    (hopen : ∀ left, tokens ≠ close :: left) (hentry : entry first tokens = some body)
    (hbody : body ≠ []) (more : List Token) : ∀ left, tokens ++ more ≠ close :: left := by
  cases tokens with
  | nil =>
    have hnil := List.append_eq_nil_iff.mp (entry_eq_some_iff.mp hentry).symm
    exact absurd hnil.2 hbody
  | cons token tokens =>
    rintro left heq
    obtain ⟨rfl, -⟩ := List.cons.inj heq
    exact hopen tokens rfl

/-- A further entry is the same with a suffix. -/
theorem entry_append {first : Bool} {tokens body : List Token} (h : entry first tokens = some body)
    (more : List Token) : entry first (tokens ++ more) = some (body ++ more) := by
  rw [entry_eq_some_iff] at h ⊢
  rw [h, List.append_assoc]

mutual

/-- What is read of tokens is the same with a suffix, which is left over. -/
theorem read_append {steps steps' : Nat} {tokens left : List Token} {o : Outline}
    (h : read steps tokens = (o, some left)) (hle : steps ≤ steps') (more : List Token) :
    read steps' (tokens ++ more) = (o, some (left ++ more)) := by
  match steps, steps' with
  | 0, _ =>
    rw [read.eq_def] at h
    cases h
  | steps + 1, steps' + 1 =>
    rw [read_eq_some_iff] at h ⊢
    have hle' := Nat.le_of_succ_le_succ hle
    rcases h with ⟨token, hleaf, rfl⟩ | ⟨body, items, rfl, rfl, hitems⟩ |
      ⟨body, members, rfl, rfl, hmembers⟩
    · exact Or.inl ⟨token, hleaf, rfl⟩
    · exact Or.inr (Or.inl ⟨_, items, rfl, rfl, readItems_append hitems hle' more⟩)
    · exact Or.inr (Or.inr ⟨_, members, rfl, rfl, readMembers_append hmembers hle' more⟩)

/-- What is read of the items of an array is the same with a suffix. -/
theorem readItems_append {steps steps' : Nat} {first : Bool} {tokens left : List Token}
    {items : Items} (h : readItems steps first tokens = (items, some left)) (hle : steps ≤ steps')
    (more : List Token) :
    readItems steps' first (tokens ++ more) = (items, some (left ++ more)) := by
  match steps, steps' with
  | 0, _ => cases h
  | steps + 1, steps' + 1 =>
    rw [readItems_eq_some_iff] at h ⊢
    have hle' := Nat.le_of_succ_le_succ hle
    rcases h with ⟨rfl, rfl⟩ | ⟨body, head, between, tail, hopen, hentry, hhead, htail, rfl⟩
    · exact Or.inl ⟨rfl, rfl⟩
    · have hopen' := append_ne_close hopen hentry (ne_nil_of_read hhead) more
      exact Or.inr ⟨_, head, _, tail, hopen', entry_append hentry more,
        read_append hhead hle' more, readItems_append htail hle' more, rfl⟩

/-- What is read of the members of an object is the same with a suffix. -/
theorem readMembers_append {steps steps' : Nat} {first : Bool} {tokens left : List Token}
    {members : Members} (h : readMembers steps first tokens = (members, some left))
    (hle : steps ≤ steps') (more : List Token) :
    readMembers steps' first (tokens ++ more) = (members, some (left ++ more)) := by
  match steps, steps' with
  | 0, _ => cases h
  | steps + 1, steps' + 1 =>
    rw [readMembers_eq_some_iff] at h ⊢
    have hle' := Nat.le_of_succ_le_succ hle
    rcases h with ⟨rfl, rfl⟩ |
      ⟨pieces, body, value, between, tail, hopen, hentry, hvalue, htail, rfl⟩
    · exact Or.inl ⟨rfl, rfl⟩
    · have hopen' := append_ne_close hopen hentry (List.cons_ne_nil _ _) more
      exact Or.inr ⟨pieces, _, value, _, tail, hopen', entry_append hentry more,
        read_append hvalue hle' more, readMembers_append htail hle' more, rfl⟩

end

mutual

/-- Nothing that is read is broken. -/
theorem read_split {steps : Nat} {tokens left : List Token} {o : Outline}
    (h : read steps tokens = (o, some left)) :
    ∃ used, tokens = used ++ left ∧ .broken ∉ used := by
  match steps with
  | 0 =>
    rw [read.eq_def] at h
    cases h
  | steps + 1 =>
    rcases read_eq_some_iff.mp h with ⟨token, hleaf, rfl⟩ | ⟨body, items, rfl, -, hitems⟩ |
      ⟨body, members, rfl, -, hmembers⟩
    · refine ⟨[token], rfl, ?_⟩
      rintro (_ | ⟨_, ⟨⟩⟩)
      cases hleaf
    · obtain ⟨used, rfl, hused⟩ := readItems_split hitems
      refine ⟨.arrayOpen :: used ++ [.arrayClose], by simp, by simpa using hused⟩
    · obtain ⟨used, rfl, hused⟩ := readMembers_split hmembers
      refine ⟨.objectOpen :: used ++ [.objectClose], by simp, by simpa using hused⟩

/-- Items that are read end with the bracket of their array. -/
theorem readItems_split {steps : Nat} {first : Bool} {tokens left : List Token}
    {items : Items} (h : readItems steps first tokens = (items, some left)) :
    ∃ used, tokens = used ++ .arrayClose :: left ∧ .broken ∉ used := by
  match steps with
  | 0 => cases h
  | steps + 1 =>
    rcases readItems_eq_some_iff.mp h with ⟨rfl, -⟩ |
      ⟨body, head, between, tail, -, hentry, hhead, htail, -⟩
    · exact ⟨[], rfl, nofun⟩
    · obtain ⟨used, rfl, hused⟩ := read_split hhead
      obtain ⟨rest, rfl, hrest⟩ := readItems_split htail
      rw [entry_eq_some_iff] at hentry
      refine ⟨(if first then [] else [.comma]) ++ used ++ rest, by simp [hentry], ?_⟩
      cases first <;> simp [hused, hrest]

/-- Members that are read end with the brace of their object. -/
theorem readMembers_split {steps : Nat} {first : Bool} {tokens left : List Token}
    {members : Members} (h : readMembers steps first tokens = (members, some left)) :
    ∃ used, tokens = used ++ .objectClose :: left ∧ .broken ∉ used := by
  match steps with
  | 0 => cases h
  | steps + 1 =>
    rcases readMembers_eq_some_iff.mp h with ⟨rfl, -⟩ |
      ⟨pieces, body, value, between, tail, -, hentry, hvalue, htail, -⟩
    · exact ⟨[], rfl, nofun⟩
    · obtain ⟨used, rfl, hused⟩ := read_split hvalue
      obtain ⟨rest, rfl, hrest⟩ := readMembers_split htail
      rw [entry_eq_some_iff] at hentry
      refine ⟨(if first then [] else [.comma]) ++ .string pieces :: .colon :: used ++ rest,
        by simp [hentry], ?_⟩
      cases first <;> simp [hused, hrest]

end

/-- The outline of an array or object. -/
def isBracketed : Outline → Bool
  | .array _ => true
  | .object _ => true
  | _ => false

/-- An array or object ends with its bracket, which is no numeral. -/
theorem getLast?_of_read {steps : Nat} {tokens : List Token} {o : Outline}
    (h : read steps tokens = (o, some [])) (hbracketed : o.isBracketed = true) (n : Numeral) :
    tokens.getLast? ≠ some (.number n) := by
  match steps with
  | 0 =>
    rw [read.eq_def] at h
    cases h
  | steps + 1 =>
    rcases read_eq_some_iff.mp h with ⟨token, hleaf, -⟩ | ⟨body, items, rfl, -, hitems⟩ |
      ⟨body, members, rfl, -, hmembers⟩
    · cases token <;> cases hleaf <;> cases hbracketed
    · obtain ⟨used, rfl, -⟩ := readItems_split hitems
      simp [List.getLast?_cons]
    · obtain ⟨used, rfl, -⟩ := readMembers_split hmembers
      simp [List.getLast?_cons]

end Outline

/-- A text that is an array or object has the same outline with a suffix, and still ends with it
exactly if the suffix is blank. -/
theorem Draft.ofChars_append {cs : List Char} {o : Outline} (h : ofChars cs = ⟨o, true⟩)
    (hbracketed : o.isBracketed = true) (more : List Char) :
    ofChars (cs ++ more) = ⟨o, more.all Token.isBlank⟩ := by
  have hread : Outline.ofTokens (Token.ofChars cs) = (o, some []) := by
    rw [ofChars] at h
    cases hread : Outline.ofTokens (Token.ofChars cs) with
    | mk outline left =>
      rw [hread] at h
      obtain ⟨rfl, hended⟩ := Draft.mk.inj h
      rw [of_decide_eq_true hended]
  obtain ⟨used, hused, hbroken⟩ := Outline.read_split hread
  rw [List.append_nil] at hused
  have htokens := Token.ofChars_append (hused ▸ hbroken)
    (Outline.getLast?_of_read hread hbracketed) more
  have hsteps : 2 * (Token.ofChars cs).length + 1 ≤
      2 * (Token.ofChars (cs ++ more)).length + 1 := by
    rw [htokens, List.length_append]
    omega
  have hmore := Outline.read_append hread hsteps (Token.ofChars more)
  rw [← htokens, List.nil_append] at hmore
  rw [Draft.ofChars, Outline.ofTokens, hmore]
  simp only [Option.some.injEq, Token.ofChars_eq_nil_iff, Bool.decide_eq_true]

end ComponentKinds.Json
