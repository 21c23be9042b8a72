import BuildConstants.Proofs.SourceUnit.Literal

/-!
# The line of a member

In the unit of its container, an accepted declaration is completed by one line: its modifiers, its
type, its name, its form and the value that is configured for it. `Declaration.IsCompletedBy` says
which line this is in terms of the declaration; there is no other one, and it is the one that the
model of the declaration is completed by.
-/

namespace BuildConstants

/-- The modifiers of members in generated text. -/
def Accessibility.modifiers : List (Accessibility × String) :=
  [(.pub, "public"), (.internal, "internal"), (.prot, "protected"), (.priv, "private"),
    (.protOrInternal, "protected internal"), (.privAndProt, "private protected")]

/-- The expression stands for a value of a type: one that is missing is left to the default, one of
a text type is written as the literal that reads as the value, and any other stands as it is. -/
def Expresses (typeText : String) (value : Option String) (expression : String) : Prop :=
  match value with
  | none => expression = "default!"
  | some value =>
    if typeText = "string" ∨ typeText = "string?" then
      Text.Quoted.readLiteral expression = some (value, "")
    else expression = value

/-- The line completes the member of the declaration. Its value is the one of the key that overrides
the name of the member, if there is such a key and it is not empty, and else the one of the name. -/
def Declaration.IsCompletedBy (d : Declaration) (properties : PropertyMap) (line : String) : Prop :=
  ∃ modifiers form key expression,
    (d.accessibility, modifiers) ∈ Accessibility.modifiers ∧
    (d.shape = .property true ∧ form = "" ∨ d.shape = .method 0 ∧ form = "()") ∧
    (d.keyOverride = some key ∧ key ≠ "" ∨
      (d.keyOverride = none ∨ d.keyOverride = some "") ∧ key = d.name) ∧
    Expresses (Text.trim d.valueType) (properties.get? key) expression ∧
    line = modifiers ++ " static partial " ++ Text.trim d.valueType ++ " " ++ d.name ++ form ++
      " => " ++ expression ++ ";"

theorem Accessibility.mem_modifiers_iff {accessibility : Accessibility} {text : String} :
    (accessibility, text) ∈ modifiers ↔ text = accessibility.keyword := by
  cases accessibility <;> simp [modifiers, keyword]

theorem Expresses.unique {typeText expression other : String} {value : Option String}
    (first : Expresses typeText value expression) (second : Expresses typeText value other) :
    expression = other := by
  cases value with
  | none => exact Eq.trans first (Eq.symm second)
  | some value =>
      unfold Expresses at first second
      dsimp only at first second
      split at first
      next isText =>
          rw [if_pos isText] at second
          rw [(Text.Quoted.readLiteral_eq_some_iff.1 first).1,
            (Text.Quoted.readLiteral_eq_some_iff.1 second).1]
      next isPlain =>
          rw [if_neg isPlain] at second
          rw [first, second]

namespace Declaration

variable {d : Declaration} {model : Model} {properties : PropertyMap} {line other : String}

/-- A declaration is completed by one line at most. -/
theorem IsCompletedBy.unique (first : d.IsCompletedBy properties line)
    (second : d.IsCompletedBy properties other) : line = other := by
  obtain ⟨modifiers, form, _, expression, isModifiers, isForm, isKey, expresses, rfl⟩ := first
  obtain ⟨otherModifiers, otherForm, _, otherExpression, isModifiersToo, isFormToo, isKeyToo,
    expressesToo, rfl⟩ := second
  rw [← key_eq_iff.2 isKey] at expresses
  rw [← key_eq_iff.2 isKeyToo] at expressesToo
  have sameForm : form = otherForm := by
    rcases isForm with ⟨shape, rfl⟩ | ⟨shape, rfl⟩ <;>
      rcases isFormToo with ⟨shapeToo, rfl⟩ | ⟨shapeToo, rfl⟩ <;> simp [shape] at shapeToo ⊢
  rw [Accessibility.mem_modifiers_iff.1 isModifiers,
    Accessibility.mem_modifiers_iff.1 isModifiersToo, sameForm, expresses.unique expressesToo]

/-- The expression of a model stands for the value of its type. -/
theorem expresses_expression (accepted : d.verdict = .ok model) (value : Option String) :
    Expresses model.valueType value (model.expression value) := by
  have type := (of_verdict_eq_ok accepted).1
  cases value with
  | none => rfl
  | some value =>
      unfold Expresses
      dsimp only
      split
      next isText =>
          rw [Model.IsText.expression_eq ⟨⟨d, accepted⟩, isText⟩]
          exact Text.Quoted.readLiteral_eq_some_iff.2 ⟨String.append_empty.symm, by simp⟩
      next isPlain =>
          rw [Model.expression, TypeRef.express]
          cases base : model.typeRef.base with
          | string =>
              refine absurd ?_ isPlain
              rw [type, TypeRef.text, base]
              cases model.typeRef.optional <;> simp [ValueType.keyword]
          | int => rfl
          | bool => rfl

/-- The model of an accepted declaration is completed by the line of the declaration. -/
theorem isCompletedBy_completion (accepted : d.verdict = .ok model) (properties : PropertyMap) :
    d.IsCompletedBy properties (model.completion (model.value? properties)) := by
  obtain ⟨shaped, restates⟩ := verdict_eq_ok_iff.1 accepted
  have expresses := expresses_expression accepted (model.value? properties)
  rw [Model.value?, restates.valueType] at expresses
  refine ⟨_, model.parameterText, _, _, Accessibility.mem_modifiers_iff.2 rfl, ?_, restates.key,
    expresses, ?_⟩
  · rcases shaped.shape with isProperty | isMethod
    · exact .inl ⟨isProperty, by rw [Model.parameterText, restates.shape, isProperty]⟩
    · exact .inr ⟨isMethod, by rw [Model.parameterText, restates.shape, isMethod]⟩
  · rw [Model.completion_eq, Model.lead, Model.value?, restates.accessibility, restates.valueType,
      restates.memberName]

end Declaration

end BuildConstants
