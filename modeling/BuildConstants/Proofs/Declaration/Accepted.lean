import BuildConstants.Model

/-!
# Types and shapes of accepted declarations

A type text is that of the type that it names with blanks around it, and different types have
different texts. A member that can be read has one shape for each form.
-/

namespace BuildConstants

theorem ValueType.keyword_of_ofKeyword? {text : String} {type : ValueType}
    (read : ofKeyword? text = some type) : type.keyword = text := by
  simpa using List.find?_some read

/-- A type text is that of its type with blanks around it. -/
theorem TypeRef.trim_of_ofText? {text : String} {type : TypeRef} (read : ofText? text = some type) :
    Text.trim text = type.text := by
  rw [ofText?] at read
  dsimp only at read
  by_cases optional : (Text.trimChars text.toList).getLast? = some '?'
  · rw [if_pos optional] at read
    obtain ⟨base, named, rfl⟩ := Option.map_eq_some_iff.1 read
    obtain ⟨front, whole⟩ := List.getLast?_eq_some_iff.1 optional
    have keyword : base.keyword = String.ofList front := by
      rw [ValueType.keyword_of_ofKeyword? named, whole, List.dropLast_concat]
    rw [Text.trim, whole, TypeRef.text, keyword, String.ofList_append]
    rfl
  · rw [if_neg optional] at read
    obtain ⟨base, named, rfl⟩ := Option.map_eq_some_iff.1 read
    rw [TypeRef.text, ValueType.keyword_of_ofKeyword? named]
    exact String.append_empty.symm

theorem TypeRef.text_injective : Function.Injective TypeRef.text := by
  rintro ⟨base, optional⟩ ⟨otherBase, otherOptional⟩ same
  revert same
  cases base <;> cases optional <;> cases otherBase <;> cases otherOptional <;> decide

/-- A member that can be read has one shape for each form. -/
theorem MemberShape.eq_of_hasAccessor {shape : MemberShape} (readable : shape.hasAccessor) :
    shape = .property true ∨ shape = .method 0 := by
  cases shape with
  | property hasGetter => exact .inl (congrArg property readable)
  | method parameterCount => exact .inr (congrArg method (of_decide_eq_true readable))

end BuildConstants
