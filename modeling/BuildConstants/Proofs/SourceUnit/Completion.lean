import BuildConstants.Proofs.Declaration.Verdict
import BuildConstants.Proofs.Text.Mark
import BuildConstants.Proofs.Text.Quoted
import BuildConstants.SourceUnit.Text

/-!
# Reading completions

The line that completes a member tells what was baked into the member and where the line ends, even
when the value of the member has line breaks: `Model.completion_append_inj`. Nothing but the texts
that stand as they were given, the name of the member and values that are not text, has to be free
of what ends it.
-/

namespace BuildConstants

/-- What is baked into a member. -/
structure Baked where
  accessibility : Accessibility
  valueType : String
  memberName : String
  shape : MemberShape
  /-- The configured value, if there is one. -/
  value : Option String
deriving DecidableEq

/-- The modifiers of a member end where `static` begins. -/
theorem Accessibility.keyword_append_inj {first second : Accessibility} {behind rest : List Char}
    (same : first.keyword.toList ++ " static partial ".toList ++ behind =
      second.keyword.toList ++ " static partial ".toList ++ rest) :
    first = second ∧ behind = rest := by
  cases first <;> cases second <;> simp [keyword] at same ⊢ <;> exact same

theorem TypeRef.space_notMem_text (type : TypeRef) : ' ' ∉ type.text.toList := by
  obtain ⟨base, optional⟩ := type
  cases base <;> cases optional <;> decide

namespace Model

/-- What is baked into the member. -/
def baked (model : Model) (properties : PropertyMap) : Baked :=
  { accessibility := model.accessibility, valueType := model.valueType,
    memberName := model.memberName, shape := model.shape, value := model.value? properties }

/-- The member is accepted, its name ends at a space or a parenthesis, and a value that is no text
ends with its line and is told apart from a value that is missing. -/
structure Legible (model : Model) (properties : PropertyMap) : Prop where
  accepted : ∃ d : Declaration, d.verdict = .ok model
  name : ' ' ∉ model.memberName.toList ∧ '(' ∉ model.memberName.toList
  value : model.typeRef.base ≠ .string → ∀ value, model.value? properties = some value →
    '\n' ∉ value.toList ∧ value ≠ unconfigured

/-- The character can stand behind the name of a member. -/
def EndsName (c : Char) : Prop :=
  c = ' ' ∨ c = '('

variable {model other : Model} {value otherValue : Option String}
  {properties otherProperties : PropertyMap} {behind rest : List Char}

theorem Legible.not_endsName (legible : model.Legible properties) :
    ∀ c ∈ model.memberName.toList, ¬ EndsName c := by
  rintro c member (rfl | rfl)
  · exact legible.name.1 member
  · exact legible.name.2 member

theorem toList_completion (model : Model) (value : Option String) :
    (model.completion value).toList =
      model.accessibility.keyword.toList ++ " static partial ".toList ++
        (model.valueType.toList ++ ' ' :: (model.memberName.toList ++
          (model.parameterText.toList ++ " => ".toList ++
            ((model.expression value).toList ++ [';'])))) := by
  have whole : model.completion value =
      model.accessibility.keyword ++ " static partial " ++ model.valueType ++ " " ++
        model.memberName ++ (model.parameterText ++ " => " ++ model.expression value ++ ";") := rfl
  rw [whole]
  simp

/-- What stands behind the name of a member that can be read starts with a sign that tells its
form. -/
theorem exists_sign (readable : model.shape.hasAccessor) :
    ∃ sign tail, EndsName sign ∧ model.parameterText.toList ++ " => ".toList = sign :: tail ∧
      (model.shape = .property true ∧ sign = ' ' ∧ tail = "=> ".toList ∨
        model.shape = .method 0 ∧ sign = '(' ∧ tail = ") => ".toList) := by
  rcases MemberShape.eq_of_hasAccessor readable with isProperty | isMethod
  · refine ⟨' ', "=> ".toList, .inl rfl, ?_, .inl ⟨isProperty, rfl, rfl⟩⟩
    rw [parameterText, isProperty]
    rfl
  · refine ⟨'(', ") => ".toList, .inr rfl, ?_, .inr ⟨isMethod, rfl, rfl⟩⟩
    rw [parameterText, isMethod]
    rfl

/-- The name of a member ends at the sign behind it. -/
theorem name_append_inj (readable : model.shape.hasAccessor)
    (readableOther : other.shape.hasAccessor)
    (name : ∀ c ∈ model.memberName.toList, ¬ EndsName c)
    (nameOther : ∀ c ∈ other.memberName.toList, ¬ EndsName c)
    (same : model.memberName.toList ++ (model.parameterText.toList ++ " => ".toList ++ behind) =
      other.memberName.toList ++ (other.parameterText.toList ++ " => ".toList ++ rest)) :
    model.memberName = other.memberName ∧ model.shape = other.shape ∧ behind = rest := by
  obtain ⟨sign, tail, isSign, arrow, form⟩ := exists_sign readable
  obtain ⟨signOther, tailOther, isSignOther, arrowOther, formOther⟩ := exists_sign readableOther
  rw [arrow, arrowOther] at same
  obtain ⟨names, signs, tails⟩ :=
    Text.append_mark_inj EndsName isSign isSignOther name nameOther same
  refine ⟨String.toList_inj.1 names, ?_⟩
  rcases form with ⟨shape, rfl, rfl⟩ | ⟨shape, rfl, rfl⟩ <;>
    rcases formOther with ⟨shapeOther, rfl, rfl⟩ | ⟨shapeOther, rfl, rfl⟩
  · exact ⟨shape.trans shapeOther.symm, List.append_cancel_left tails⟩
  · cases signs
  · cases signs
  · exact ⟨shape.trans shapeOther.symm, List.append_cancel_left tails⟩

/-- The expression of a text ends with its literal, whatever the text is. -/
theorem text_expression_append_inj (isText : model.typeRef.base = .string)
    (isTextOther : other.typeRef.base = .string)
    (same : (model.expression value).toList ++ ';' :: behind =
      (other.expression otherValue).toList ++ ';' :: rest) :
    value = otherValue ∧ behind = rest := by
  have literal : ∀ {model : Model} {text : String} {behind : List Char},
      model.typeRef.base = .string →
      (model.expression (some text)).toList ++ ';' :: behind =
        '@' :: '"' :: (Text.Quoted.encode text.toList ++ '"' :: ';' :: behind) := by
    intro model text behind isText
    rw [expression, TypeRef.express, isText, ValueType.express, Text.Quoted.literal]
    simp
  have missing : ∀ {model : Model} {behind : List Char},
      (model.expression none).toList ++ behind = 'd' :: ("efault!".toList ++ behind) := by
    intro model behind
    simp [expression, unconfigured]
  cases value with
  | none =>
      cases otherValue with
      | none => exact ⟨rfl, (List.cons.inj (List.append_cancel_left same)).2⟩
      | some text =>
          rw [literal isTextOther, missing] at same
          cases (List.cons.inj same).1
  | some text =>
      cases otherValue with
      | none =>
          rw [literal isText, missing] at same
          cases (List.cons.inj same).1
      | some otherText =>
          rw [literal isText, literal isTextOther] at same
          have bodies := (List.cons.inj (List.cons.inj same).2).2
          obtain ⟨texts, rests⟩ :=
            Text.Quoted.encode_append_inj (by simp) (by simp) bodies
          exact ⟨congrArg some (String.toList_inj.1 texts), (List.cons.inj rests).2⟩

/-- The expression of a value that is no text ends with its line. -/
theorem plain_expression_append_inj (isPlain : model.typeRef.base ≠ .string)
    (isPlainOther : other.typeRef.base ≠ .string)
    (plain : ∀ text, value = some text → '\n' ∉ text.toList ∧ text ≠ unconfigured)
    (plainOther : ∀ text, otherValue = some text → '\n' ∉ text.toList ∧ text ≠ unconfigured)
    (same : (model.expression value).toList ++ ';' :: '\n' :: behind =
      (other.expression otherValue).toList ++ ';' :: '\n' :: rest) :
    value = otherValue ∧ behind = rest := by
  have expressed : ∀ {model : Model} {value : Option String}, model.typeRef.base ≠ .string →
      model.expression value = value.getD unconfigured := by
    intro model value isPlain
    cases value with
    | none => rfl
    | some text =>
        rw [expression, TypeRef.express]
        cases base : model.typeRef.base with
        | string => exact absurd base isPlain
        | int => rfl
        | bool => rfl
  have whole : ∀ {value : Option String},
      (∀ text, value = some text → '\n' ∉ text.toList ∧ text ≠ unconfigured) →
      '\n' ∉ (value.getD unconfigured).toList ++ [';'] := by
    intro value plain
    rw [List.mem_append, not_or]
    refine ⟨?_, by decide⟩
    cases value with
    | none => decide
    | some text => exact (plain text rfl).1
  rw [expressed isPlain, expressed isPlainOther, List.append_cons,
    List.append_cons (otherValue.getD unconfigured).toList] at same
  obtain ⟨lines, rests⟩ := Text.append_cons_inj (whole plain) (whole plainOther) same
  have texts := String.toList_inj.1 (List.append_cancel_right lines)
  refine ⟨?_, rests⟩
  cases value with
  | none =>
      cases otherValue with
      | none => rfl
      | some text => exact absurd texts.symm (plainOther text rfl).2
  | some text =>
      cases otherValue with
      | none => exact absurd texts (plain text rfl).2
      | some otherText => exact congrArg some texts

/-- The line of a legible member tells what is baked into it. -/
theorem completion_append_inj (legible : model.Legible properties)
    (legibleOther : other.Legible otherProperties)
    (same : (model.completion (model.value? properties)).toList ++ '\n' :: behind =
      (other.completion (other.value? otherProperties)).toList ++ '\n' :: rest) :
    model.baked properties = other.baked otherProperties ∧ behind = rest := by
  obtain ⟨d, accepted⟩ := legible.accepted
  obtain ⟨dOther, acceptedOther⟩ := legibleOther.accepted
  obtain ⟨type, readable⟩ := Declaration.of_verdict_eq_ok accepted
  obtain ⟨typeOther, readableOther⟩ := Declaration.of_verdict_eq_ok acceptedOther
  simp only [toList_completion, List.append_assoc, List.cons_append, List.nil_append] at same
  rw [← List.append_assoc, ← List.append_assoc other.accessibility.keyword.toList] at same
  obtain ⟨accessibility, same⟩ := Accessibility.keyword_append_inj same
  rw [type, typeOther] at same
  obtain ⟨typeTexts, same⟩ := Text.append_cons_inj (TypeRef.space_notMem_text _)
    (TypeRef.space_notMem_text _) same
  have types := TypeRef.text_injective (String.toList_inj.1 typeTexts)
  rw [← List.append_assoc model.parameterText.toList,
    ← List.append_assoc other.parameterText.toList] at same
  obtain ⟨name, shape, same⟩ := name_append_inj readable readableOther legible.not_endsName
    legibleOther.not_endsName same
  have values : model.value? properties = other.value? otherProperties ∧ behind = rest := by
    by_cases isText : model.typeRef.base = .string
    · obtain ⟨values, lines⟩ := text_expression_append_inj isText (types ▸ isText) same
      exact ⟨values, (List.cons.inj lines).2⟩
    · exact plain_expression_append_inj isText (types ▸ isText) (legible.value isText)
        (legibleOther.value (types ▸ isText)) same
  refine ⟨?_, values.2⟩
  rw [baked, baked, accessibility, type, typeOther, types, name, shape, values.1]

end Model

end BuildConstants
