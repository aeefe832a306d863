import ComponentKinds.Decoding.Text
import ComponentKinds.Decoding.Tree
import ComponentKinds.Proofs.Except
import ComponentKinds.Proofs.Json.Suffixes
import ComponentKinds.Proofs.Registry.Blocks

/-!
# Which fault of a schema is reported

A schema is decoded in three stages: its declaration is read, the attributes are added to an empty
schema, and what follows in a text must be blank. A fault of an earlier stage is reported before
one of a later stage, wherever in the input they stand. The second stage does what declaring the
kind in an empty registry does.
-/

namespace ComponentKinds

/-- A fault of the form of what is decoded, not of its attributes together. -/
def DecodeFault.IsForm : DecodeFault → Prop
  | .rejected _ => False
  | _ => True

/-- A fault of the text or of the form of what is decoded. -/
def TextFault.IsForm : TextFault → Prop
  | .malformed => True
  | .decode fault => fault.IsForm

theorem Attribute.Parts.assemble_failsBy (parts : Attribute.Parts) :
    FailsBy DecodeFault.IsForm parts.assemble := by
  unfold assemble
  split
  · exact .ok _
  · exact .error trivial
  · exact .error trivial

theorem Schema.Parts.assemble_failsBy (parts : Schema.Parts) :
    FailsBy DecodeFault.IsForm parts.assemble := by
  unfold assemble
  split
  · exact .ok _
  · exact .error trivial
  · exact .error trivial

namespace Json

theorem decodeString_failsBy (j : Json) : FailsBy DecodeFault.IsForm j.decodeString := by
  cases j with
  | str s => exact .ok s
  | _ => exact .error trivial

theorem ofToken_failsBy (token : String) :
    FailsBy DecodeFault.IsForm (ValueKind.ofToken token) := by
  rw [ValueKind.ofToken]
  cases ValueKind.ofToken? token with
  | some k => exact .ok k
  | none => exact .error trivial

theorem decodeKind_failsBy (j : Json) : FailsBy DecodeFault.IsForm j.decodeKind := by
  unfold decodeKind
  split
  · exact ofToken_failsBy _
  · refine .bind (ofToken_failsBy _) fun k => ?_
    split
    · exact .ok k
    · exact .error trivial
  · exact .error trivial
  · exact .error trivial

theorem decodeDefault_failsBy (j : Json) : FailsBy DecodeFault.IsForm j.decodeDefault := by
  unfold decodeDefault
  split
  · exact .ok none
  · split
    · exact .ok _
    · exact .error trivial

theorem attributeParts_failsBy (parts : Attribute.Parts) (members : List (String × Json)) :
    FailsBy DecodeFault.IsForm (attributeParts parts members) := by
  induction members generalizing parts with
  | nil => exact .ok parts
  | cons member rest ih =>
    unfold attributeParts
    split
    · exact .bind (decodeString_failsBy _) fun _ => ih _
    · split
      · exact .bind (decodeKind_failsBy _) fun _ => ih _
      · split
        · exact .bind (decodeDefault_failsBy _) fun _ => ih _
        · exact ih parts

theorem attributeOfItems_failsBy (items : List Json) :
    FailsBy DecodeFault.IsForm (attributeOfItems items) := by
  unfold attributeOfItems
  split
  · exact .error trivial
  · refine .bind (decodeString_failsBy _) fun name => ?_
    split
    · exact .error trivial
    · refine .bind (decodeKind_failsBy _) fun kind => ?_
      split
      · exact .ok _
      · refine .bind (decodeDefault_failsBy _) fun fallback => ?_
        split
        · exact .ok _
        · exact .error trivial

theorem decodeAttribute_failsBy (j : Json) : FailsBy DecodeFault.IsForm j.decodeAttribute := by
  unfold decodeAttribute
  split
  · exact .bind (attributeParts_failsBy _ _) fun parts => parts.assemble_failsBy
  · exact attributeOfItems_failsBy _
  · exact .error trivial

theorem attributeItems_failsBy (items : List Json) :
    FailsBy DecodeFault.IsForm (attributeItems items) := by
  induction items with
  | nil => exact .ok []
  | cons head tail ih =>
    exact .bind (decodeAttribute_failsBy head) fun a => .bind ih fun rest => .ok (a :: rest)

theorem decodeAttributes_failsBy (j : Json) : FailsBy DecodeFault.IsForm j.decodeAttributes := by
  unfold decodeAttributes
  split
  · exact attributeItems_failsBy _
  · exact .error trivial

theorem schemaParts_failsBy (parts : Schema.Parts) (members : List (String × Json)) :
    FailsBy DecodeFault.IsForm (schemaParts parts members) := by
  induction members generalizing parts with
  | nil => exact .ok parts
  | cons member rest ih =>
    unfold schemaParts
    split
    · exact .bind (decodeString_failsBy _) fun _ => ih _
    · split
      · exact .bind (decodeAttributes_failsBy _) fun _ => ih _
      · exact ih parts

theorem declarationOfItems_failsBy (items : List Json) :
    FailsBy DecodeFault.IsForm (declarationOfItems items) := by
  unfold declarationOfItems
  split
  · exact .error trivial
  · refine .bind (decodeString_failsBy _) fun name => ?_
    split
    · exact .error trivial
    · refine .bind (decodeAttributes_failsBy _) fun options => ?_
      split
      · exact .ok _
      · exact .error trivial

/-- A tree that is not read as a declaration has a fault of form. -/
theorem decodeDeclaration_failsBy (j : Json) :
    FailsBy DecodeFault.IsForm j.decodeDeclaration := by
  unfold decodeDeclaration
  split
  · exact .bind (schemaParts_failsBy _ _) fun parts => parts.assemble_failsBy
  · exact declarationOfItems_failsBy _
  · exact .error trivial

namespace Outline

theorem unexpected_isForm (o : Outline) (expected : Expected) :
    (o.unexpected expected).IsForm := by
  unfold unexpected
  split <;> trivial

theorem lift_failsBy {α : Type} {x : Except DecodeFault α} (h : FailsBy DecodeFault.IsForm x) :
    FailsBy TextFault.IsForm (lift x) := by
  cases x with
  | ok y => exact .ok y
  | error fault => exact .error (h fault rfl)

theorem decodeString_failsBy (o : Outline) : FailsBy TextFault.IsForm o.decodeString := by
  unfold decodeString
  split
  · split
    · exact .ok _
    · exact .error trivial
  · exact .error (unexpected_isForm _ _)

theorem decodeToken_failsBy (o : Outline) : FailsBy TextFault.IsForm o.decodeToken := by
  refine .bind o.decodeString_failsBy fun token => ?_
  cases htoken : ValueKind.ofToken token with
  | ok k => exact .ok k
  | error fault => exact .error (ofToken_failsBy token fault htoken)

theorem decodeKindMember_failsBy (members : Members) :
    FailsBy TextFault.IsForm (decodeKindMember members) := by
  unfold decodeKindMember
  split
  · refine .bind (decodeToken_failsBy _) fun k => ?_
    split
    · exact .ok k
    · exact .error trivial
    · exact .error (unexpected_isForm _ _)
  · exact .error (unexpected_isForm _ _)
  · exact .error trivial

theorem decodeKind_failsBy (o : Outline) : FailsBy TextFault.IsForm o.decodeKind := by
  unfold decodeKind
  split
  · exact decodeToken_failsBy _
  · exact decodeKindMember_failsBy _
  · exact .error trivial

theorem decodeDefault_failsBy (o : Outline) : FailsBy TextFault.IsForm o.decodeDefault := by
  unfold decodeDefault
  split
  · exact .ok none
  · unfold decodeValue
    split
    · exact .error trivial
    · split
      · exact .ok _
      · exact .error trivial

/-- A part that is read once at most fails as its reader and what follows do. -/
private theorem readOnce_failsBy {α β : Type} {read? : Bool} {key : String}
    {read : Except TextFault α} {next : α → Except TextFault β}
    (hread : FailsBy TextFault.IsForm read) (hnext : ∀ x, FailsBy TextFault.IsForm (next x)) :
    FailsBy TextFault.IsForm
      (if read? then .error (.decode (.repeatedMember key)) else read >>= next) := by
  cases read? with
  | true => exact .error trivial
  | false => exact .bind hread hnext

theorem attributeParts_failsBy (parts : Attribute.Parts) (members : Members) :
    FailsBy TextFault.IsForm (attributeParts parts members) := by
  match members with
  | .closed => exact .ok parts
  | .broken => exact .error trivial
  | .member key value tail =>
    have ih : ∀ parts, FailsBy TextFault.IsForm (attributeParts parts tail) :=
      fun parts => attributeParts_failsBy parts tail
    rw [attributeParts]
    cases key.key? with
    | none => exact .error trivial
    | some name =>
      by_cases hname : name = "name"
      · simp only [if_pos hname]
        exact readOnce_failsBy value.decodeString_failsBy fun _ => ih _
      by_cases hkind : name = "kind"
      · simp only [if_neg hname, if_pos hkind]
        exact readOnce_failsBy value.decodeKind_failsBy fun _ => ih _
      by_cases hdefault : name = "default"
      · simp only [if_neg hname, if_neg hkind, if_pos hdefault]
        exact readOnce_failsBy value.decodeDefault_failsBy fun _ => ih _
      · simp only [if_neg hname, if_neg hkind, if_neg hdefault]
        exact ih parts

theorem attributeOfItems_failsBy (items : Items) :
    FailsBy TextFault.IsForm (attributeOfItems items) := by
  unfold attributeOfItems
  split
  · exact .error trivial
  · exact .error trivial
  · refine .bind (decodeString_failsBy _) fun name => ?_
    split
    · exact .error trivial
    · exact .error trivial
    · refine .bind (decodeKind_failsBy _) fun kind => ?_
      split
      · exact .ok _
      · exact .error trivial
      · refine .bind (decodeDefault_failsBy _) fun fallback => ?_
        split
        · exact .ok _
        · exact .error trivial

theorem decodeAttribute_failsBy (o : Outline) : FailsBy TextFault.IsForm o.decodeAttribute := by
  unfold decodeAttribute
  split
  · exact .bind (attributeParts_failsBy _ _) fun parts => lift_failsBy parts.assemble_failsBy
  · exact attributeOfItems_failsBy _
  · exact .error (unexpected_isForm _ _)

theorem attributeItems_failsBy (items : Items) :
    FailsBy TextFault.IsForm (attributeItems items) := by
  match items with
  | .closed => exact .ok []
  | .broken => exact .error trivial
  | .item head tail =>
    exact .bind head.decodeAttribute_failsBy fun a =>
      .bind (attributeItems_failsBy tail) fun rest => .ok (a :: rest)

theorem decodeAttributes_failsBy (o : Outline) : FailsBy TextFault.IsForm o.decodeAttributes := by
  unfold decodeAttributes
  split
  · exact attributeItems_failsBy _
  · exact .error (unexpected_isForm _ _)

theorem schemaParts_failsBy (parts : Schema.Parts) (members : Members) :
    FailsBy TextFault.IsForm (schemaParts parts members) := by
  match members with
  | .closed => exact .ok parts
  | .broken => exact .error trivial
  | .member key value tail =>
    have ih : ∀ parts, FailsBy TextFault.IsForm (schemaParts parts tail) :=
      fun parts => schemaParts_failsBy parts tail
    rw [schemaParts]
    cases key.key? with
    | none => exact .error trivial
    | some name =>
      by_cases hname : name = "name"
      · simp only [if_pos hname]
        exact readOnce_failsBy value.decodeString_failsBy fun _ => ih _
      by_cases hoptions : name = "options"
      · simp only [if_neg hname, if_pos hoptions]
        exact readOnce_failsBy value.decodeAttributes_failsBy fun _ => ih _
      · simp only [if_neg hname, if_neg hoptions]
        exact ih parts

theorem declarationOfItems_failsBy (items : Items) :
    FailsBy TextFault.IsForm (declarationOfItems items) := by
  unfold declarationOfItems
  split
  · exact .error trivial
  · exact .error trivial
  · refine .bind (decodeString_failsBy _) fun name => ?_
    split
    · exact .error trivial
    · exact .error trivial
    · refine .bind (decodeAttributes_failsBy _) fun options => ?_
      split
      · exact .ok _
      · exact .error trivial

/-- An outline that is not read as a declaration has a fault of the text or of form. -/
theorem decodeDeclaration_failsBy (o : Outline) :
    FailsBy TextFault.IsForm o.decodeDeclaration := by
  unfold decodeDeclaration
  split
  · exact .bind (schemaParts_failsBy _ _) fun parts => lift_failsBy parts.assemble_failsBy
  · exact declarationOfItems_failsBy _
  · exact .error (unexpected_isForm _ _)

/-- Only an array or object is read as a declaration. -/
theorem isBracketed_of_decodeDeclaration {o : Outline} {d : Schema.Declaration}
    (h : o.decodeDeclaration = .ok d) : o.isBracketed = true := by
  cases o with
  | array _ | object _ => rfl
  | _ => cases h

end Outline

end Json

/-- Declare a kind in an empty registry: its schema, or the error of the first attribute that is
refused. -/
def Registry.declared (family : String) (declaration : Schema.Declaration) : Except Error Schema :=
  let outcome := ({ family } : Registry).register ⟨declaration.1, declaration.2⟩
  match outcome.error? with
  | some e => .error e
  | none => outcome.registry.lookup declaration.1

/-- Building a schema is declaring its kind in an empty registry. -/
theorem Registry.declared_eq_build (family : String) (declaration : Schema.Declaration) :
    declared family declaration = Schema.build declaration.1 declaration.2 := by
  obtain ⟨kind, attributes⟩ := declaration
  have hsets := (valid_empty family).sets_register ⟨kind, attributes⟩
  have hnone : ({ family } : Registry).schema? kind = none := rfl
  rw [hnone, Option.getD_none] at hsets
  rw [declared, Schema.build, Schema.addAll_eq_addWhile, hsets.error?_eq]
  cases (Schema.addWhile { name := kind } attributes).2 with
  | some e => rfl
  | none => rw [lookup, hsets.schema?_eq, if_pos rfl]

/-- What a text comes to once its declaration has been declared: an attribute that was refused is
reported whatever follows, and otherwise nothing but blanks may follow. -/
def Schema.settled (declared : Except Error Schema) (ended : Bool) : Except TextFault Schema :=
  match declared with
  | .error e => .error (.decode (.rejected e))
  | .ok s => if ended then .ok s else .error .malformed

namespace Schema

open Json (Draft)

variable {family : String} {d : Declaration}

theorem ofDeclaration_eq_declared (family : String) (d : Declaration) :
    ofDeclaration d = (Registry.declared family d).mapError .rejected := by
  rw [Registry.declared_eq_build, ofDeclaration]
  cases build d.1 d.2 <;> rfl

theorem ofJson_of_decodeDeclaration_eq_ok {j : Json} (h : j.decodeDeclaration = .ok d) :
    ofJson j = (Registry.declared family d).mapError .rejected := by
  rw [← ofDeclaration_eq_declared, ofJson, Json.decodeSchema, h]
  rfl

theorem ofJson_of_decodeDeclaration_eq_error {j : Json} {fault : DecodeFault}
    (h : j.decodeDeclaration = .error fault) : ofJson j = .error fault := by
  rw [ofJson, Json.decodeSchema, h]
  rfl

theorem decode_of_decodeDeclaration_eq_ok {draft : Draft}
    (h : draft.outline.decodeDeclaration = .ok d) :
    draft.decode Json.Outline.decodeSchema =
      settled (Registry.declared family d) draft.ended := by
  have hschema : draft.outline.decodeSchema =
      Json.Outline.lift ((Registry.declared family d).mapError .rejected) := by
    rw [← ofDeclaration_eq_declared, Json.Outline.decodeSchema, h]
    rfl
  rw [Draft.decode, hschema]
  cases Registry.declared family d <;> rfl

theorem decode_of_decodeDeclaration_eq_error {draft : Draft} {fault : TextFault}
    (h : draft.outline.decodeDeclaration = .error fault) :
    draft.decode Json.Outline.decodeSchema = .error fault := by
  rw [Draft.decode, Json.Outline.decodeSchema, h]
  rfl

/-- A tree or text that is not read as a declaration has that fault, whatever its attributes. One
that is read comes to what declaring it comes to, and only then does it matter what follows in a
text. The message of an attribute that is refused is that of its error, but for a position at the
end. -/
theorem faults_in_order (family : String) :
    (∀ j : Json,
      (∀ fault, j.decodeDeclaration = .error fault →
        ofJson j = .error fault ∧ ∀ e, fault ≠ .rejected e) ∧
      ∀ d, j.decodeDeclaration = .ok d →
        ofJson j = (Registry.declared family d).mapError .rejected) ∧
    (∀ text : String, let draft := Draft.ofChars text.toList
      (∀ fault, draft.outline.decodeDeclaration = .error fault →
        ofText text = .error fault ∧ ∀ e, fault ≠ .decode (.rejected e)) ∧
      ∀ d, draft.outline.decodeDeclaration = .ok d →
        ofText text = settled (Registry.declared family d) draft.ended ∧
        (draft.ended = true → ∀ suffix : String, ofText (text ++ suffix) =
          settled (Registry.declared family d) (suffix.toList.all Json.Token.isBlank))) ∧
    ∀ e message, (DecodeFault.rejected e).message = message ↔
      Text.Positioned e.message message ∨
        e.message = message ∧ ∀ front, ¬Text.Positioned e.message front := by
  refine ⟨fun j => ⟨fun fault h => ⟨?_, ?_⟩, fun d h => ?_⟩,
    fun text => ⟨fun fault h => ⟨?_, ?_⟩, fun d h => ⟨?_, fun hended suffix => ?_⟩⟩,
    fun e message => Text.withoutPosition_eq_iff⟩
  · exact ofJson_of_decodeDeclaration_eq_error h
  · rintro e rfl
    exact j.decodeDeclaration_failsBy _ h
  · exact ofJson_of_decodeDeclaration_eq_ok h
  · exact decode_of_decodeDeclaration_eq_error h
  · rintro e rfl
    exact Json.Outline.decodeDeclaration_failsBy _ _ h
  · exact decode_of_decodeDeclaration_eq_ok h
  · cases hdraft : Draft.ofChars text.toList with
    | mk outline ended =>
      rw [hdraft] at h hended
      cases hended
      have hbracketed := Json.Outline.isBracketed_of_decodeDeclaration h
      rw [ofText, String.toList_append, Draft.ofChars_append hdraft hbracketed]
      exact decode_of_decodeDeclaration_eq_ok h

/-- An attribute is declared twice. That is reported though something else follows the text, but
not if the text breaks off; the name looks like a position, and is not all of the message. -/
theorem faults_in_order_repeated :
    let repeated := "[\"n\",[[\"a at line 1 column 2\",\"int\"],[\"a at line 1 column 2\",\"bool\"]"
    let fault : DecodeFault := .rejected (.schema "n" (.duplicateAttribute "a at line 1 column 2"))
    ofText repeated = .error .malformed ∧ ofText (repeated ++ "]]") = .error (.decode fault) ∧
      ofText (repeated ++ "]]" ++ " ]") = .error (.decode fault) ∧
      ofJson (.obj [("name", .str "n"), ("options", .arr
        [.arr [.str "a at line 1 column 2", .str "int"],
          .arr [.str "a at line 1 column 2", .str "bool"]])]) = .error fault ∧
      fault.message = "schema error in n: duplicate attribute a" := by
  intro repeated fault
  obtain ⟨htrees, htexts, hmessages⟩ := faults_in_order "executor"
  let attributes : List Attribute :=
    [⟨"a at line 1 column 2", .int, none⟩, ⟨"a at line 1 column 2", .bool, none⟩]
  have hbroken := (htexts repeated).1 .malformed (by decide +kernel)
  have hread := (htexts (repeated ++ "]]")).2 ("n", attributes) (by decide +kernel)
  refine ⟨hbroken.1, hread.1.trans rfl, (hread.2 (by decide +kernel) " ]").trans rfl, ?_, ?_⟩
  · exact ((htrees _).2 ("n", attributes) rfl).trans rfl
  · exact (hmessages _ _).mpr (Or.inl ⟨['1'], ['2'], nofun, nofun, rfl, rfl, rfl⟩)

end Schema

end ComponentKinds
