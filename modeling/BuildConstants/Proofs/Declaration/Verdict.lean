import BuildConstants.Proofs.Declaration.Accepted
import BuildConstants.Proofs.Text.Blank

/-!
# Which declarations are accepted

A declaration is accepted exactly when its member can be completed and its type is supported, and
its model is then the only one that restates it. A rejected one has one diagnostic: about the member
when it cannot be completed, whatever its type is, and else about the type.
`Declaration.verdict_iff` states all of this.
-/

namespace BuildConstants

/-- The types that a configured value can have, as they are written. -/
def TypeRef.supportedTexts : List String :=
  ["string", "string?", "int", "int?", "bool", "bool?"]

namespace TypeRef

variable {text : String} {type : TypeRef}

theorem mem_supportedTexts_iff : text ∈ supportedTexts ↔ ∃ type : TypeRef, type.text = text := by
  constructor
  · simp only [supportedTexts, List.mem_cons, List.not_mem_nil, or_false]
    rintro (rfl | rfl | rfl | rfl | rfl | rfl)
    · exact ⟨⟨.string, false⟩, rfl⟩
    · exact ⟨⟨.string, true⟩, rfl⟩
    · exact ⟨⟨.int, false⟩, rfl⟩
    · exact ⟨⟨.int, true⟩, rfl⟩
    · exact ⟨⟨.bool, false⟩, rfl⟩
    · exact ⟨⟨.bool, true⟩, rfl⟩
  · rintro ⟨⟨base, optional⟩, rfl⟩
    cases base <;> cases optional <;> decide

/-- A type text names the type that is written like it, apart from blanks around it. -/
theorem ofText?_eq_some_iff : ofText? text = some type ↔ Text.trim text = type.text := by
  refine ⟨trim_of_ofText?, fun trimmed => ?_⟩
  have letters : Text.trimChars text.toList = type.text.toList := by
    rw [← trimmed, Text.trim, String.toList_ofList]
  rw [ofText?, letters]
  obtain ⟨base, optional⟩ := type
  cases base <;> cases optional <;> decide

theorem ofText?_eq_none_iff : ofText? text = none ↔ Text.trim text ∉ supportedTexts := by
  rw [mem_supportedTexts_iff, not_exists, Option.eq_none_iff_forall_ne_some]
  exact forall_congr' fun type => not_congr (ofText?_eq_some_iff.trans eq_comm)

end TypeRef

theorem MemberShape.hasAccessor_iff {shape : MemberShape} :
    shape.hasAccessor ↔ shape = .property true ∨ shape = .method 0 := by
  refine ⟨eq_of_hasAccessor, ?_⟩
  rintro (rfl | rfl) <;> decide

theorem Verdict.model?_eq_some_iff {verdict : Verdict} {model : Model} :
    verdict.model? = some model ↔ verdict = .ok model := by
  cases verdict <;> simp [model?]

theorem Verdict.diagnostic?_eq_some_iff {verdict : Verdict} {diagnostic : Diagnostic} :
    verdict.diagnostic? = some diagnostic ↔ verdict = .error diagnostic := by
  cases verdict <;> simp [diagnostic?]

/-- The member has the form of one that can be completed: it is static, waits for its body, and is a
property with a getter or a method without parameters. -/
structure Declaration.IsWellShaped (d : Declaration) : Prop where
  isStatic : d.isStatic = true
  isCompletable : d.isCompletable = true
  shape : d.shape = .property true ∨ d.shape = .method 0

/-- The model says about its member what the declaration says. -/
structure Model.Restates (model : Model) (d : Declaration) : Prop where
  container : (⟨model.namespaceName, model.containerName, model.containerKind⟩ : Container) =
    d.container
  accessibility : model.accessibility = d.accessibility
  memberName : model.memberName = d.name
  shape : model.shape = d.shape
  /-- The type is emitted as it is written, without the blanks around it. -/
  valueType : model.valueType = Text.trim d.valueType
  typeRef : model.typeRef.text = model.valueType
  /-- An override counts when it is not empty. -/
  key : d.keyOverride = some model.key ∧ model.key ≠ "" ∨
    (d.keyOverride = none ∨ d.keyOverride = some "") ∧ model.key = d.name

namespace Declaration

variable {d : Declaration} {model : Model} {diagnostic : Diagnostic} {key : String}

theorem key_eq_iff :
    d.key = key ↔ d.keyOverride = some key ∧ key ≠ "" ∨
      (d.keyOverride = none ∨ d.keyOverride = some "") ∧ key = d.name := by
  rw [Declaration.key]
  split
  next absent => simp [absent, eq_comm]
  next empty => simp [empty, eq_comm]
  next text notEmpty given =>
      simp only [given, Option.some.injEq, reduceCtorEq, false_or]
      constructor
      · rintro rfl
        exact .inl ⟨rfl, notEmpty⟩
      · rintro (⟨same, -⟩ | ⟨isEmpty, -⟩)
        · exact same
        · exact absurd isEmpty notEmpty

/-- What is looked at first in a declaration is whether its member is well shaped. -/
theorem isWellShaped_iff :
    d.IsWellShaped ↔ ¬ (!d.isStatic || !d.isCompletable || !d.hasAccessor) = true := by
  simp only [Bool.or_eq_true, Bool.not_eq_true', not_or, Bool.not_eq_false, and_assoc, hasAccessor,
    MemberShape.hasAccessor_iff]
  exact ⟨fun ⟨isStatic, isCompletable, shape⟩ => ⟨isStatic, isCompletable, shape⟩,
    fun ⟨isStatic, isCompletable, shape⟩ => ⟨isStatic, isCompletable, shape⟩⟩

theorem verdict_of_misshapen (misshapen : ¬ d.IsWellShaped) :
    d.verdict = .error (.invalidShape d.name d.location) := by
  rw [verdict, if_pos (Decidable.not_not.1 (mt isWellShaped_iff.2 misshapen))]

theorem verdict_of_unsupported (shaped : d.IsWellShaped)
    (unsupported : Text.trim d.valueType ∉ TypeRef.supportedTexts) :
    d.verdict = .error (.unsupportedType (Text.trim d.valueType) d.location) := by
  rw [verdict, if_neg (isWellShaped_iff.1 shaped), TypeRef.ofText?_eq_none_iff.2 unsupported]

/-- The model of a declaration whose type is supported. -/
theorem verdict_of_supported {type : TypeRef} (shaped : d.IsWellShaped)
    (supported : Text.trim d.valueType = type.text) :
    d.verdict = .ok
      { namespaceName := d.container.namespaceName, containerName := d.container.name,
        containerKind := d.container.kind, accessibility := d.accessibility,
        valueType := Text.trim d.valueType, typeRef := type, memberName := d.name,
        shape := d.shape, key := d.key } := by
  rw [verdict, if_neg (isWellShaped_iff.1 shaped), TypeRef.ofText?_eq_some_iff.2 supported]

/-- A declaration is rejected for its shape, rejected for its type or accepted. -/
theorem verdict_cases (d : Declaration) :
    ¬ d.IsWellShaped ∨
      d.IsWellShaped ∧ Text.trim d.valueType ∉ TypeRef.supportedTexts ∨
      d.IsWellShaped ∧ ∃ type : TypeRef, Text.trim d.valueType = type.text := by
  by_cases shaped : d.IsWellShaped
  · by_cases supported : Text.trim d.valueType ∈ TypeRef.supportedTexts
    · obtain ⟨type, named⟩ := TypeRef.mem_supportedTexts_iff.1 supported
      exact .inr (.inr ⟨shaped, type, named.symm⟩)
    · exact .inr (.inl ⟨shaped, supported⟩)
  · exact .inl shaped

/-- A declaration has one model, which restates it. -/
theorem verdict_eq_ok_iff : d.verdict = .ok model ↔ d.IsWellShaped ∧ model.Restates d := by
  constructor
  · intro accepted
    rcases verdict_cases d with misshapen | ⟨shaped, unsupported⟩ | ⟨shaped, type, supported⟩
    · rw [verdict_of_misshapen misshapen] at accepted
      cases accepted
    · rw [verdict_of_unsupported shaped unsupported] at accepted
      cases accepted
    · rw [verdict_of_supported shaped supported] at accepted
      cases accepted
      exact ⟨shaped, rfl, rfl, rfl, rfl, rfl, supported.symm, key_eq_iff.1 rfl⟩
  · rintro ⟨shaped, restates⟩
    have supported := restates.valueType.symm.trans restates.typeRef.symm
    rw [verdict_of_supported shaped supported, ← restates.container, ← restates.accessibility,
      ← restates.memberName, ← restates.shape, ← restates.valueType, key_eq_iff.2 restates.key]

/-- What the model of an accepted declaration is made of. -/
theorem of_verdict_eq_ok (accepted : d.verdict = .ok model) :
    model.valueType = model.typeRef.text ∧ model.shape.hasAccessor := by
  obtain ⟨shaped, restates⟩ := verdict_eq_ok_iff.1 accepted
  refine ⟨restates.typeRef.symm, ?_⟩
  rw [restates.shape, MemberShape.hasAccessor_iff]
  exact shaped.shape

/-- A diagnostic is about the shape of the member, or else about its type. -/
theorem verdict_eq_error_iff :
    d.verdict = .error diagnostic ↔
      diagnostic.location = d.location ∧
        (¬ d.IsWellShaped ∧ diagnostic.kind = .invalidShape ∧ diagnostic.arguments = [d.name] ∨
          d.IsWellShaped ∧ Text.trim d.valueType ∉ TypeRef.supportedTexts ∧
            diagnostic.kind = .unsupportedType ∧
            diagnostic.arguments = [Text.trim d.valueType]) := by
  obtain ⟨kind, location, arguments⟩ := diagnostic
  dsimp only
  rcases verdict_cases d with misshapen | ⟨shaped, unsupported⟩ | ⟨shaped, type, supported⟩
  · rw [verdict_of_misshapen misshapen]
    constructor
    · intro same
      cases same
      exact ⟨rfl, .inl ⟨misshapen, rfl, rfl⟩⟩
    · rintro ⟨rfl, ⟨-, rfl, rfl⟩ | ⟨shaped, -⟩⟩
      · rfl
      · exact absurd shaped misshapen
  · rw [verdict_of_unsupported shaped unsupported]
    constructor
    · intro same
      cases same
      exact ⟨rfl, .inr ⟨shaped, unsupported, rfl, rfl⟩⟩
    · rintro ⟨rfl, ⟨misshapen, -⟩ | ⟨-, -, rfl, rfl⟩⟩
      · exact absurd shaped misshapen
      · rfl
  · rw [verdict_of_supported shaped supported]
    simp [shaped, TypeRef.mem_supportedTexts_iff.2 ⟨type, supported.symm⟩]

/-- A diagnostic shows one text. -/
theorem exists_argument (rejected : d.verdict = .error diagnostic) :
    ∃ shown, diagnostic.arguments = [shown] := by
  obtain ⟨-, ⟨-, -, given⟩ | ⟨-, -, -, given⟩⟩ := verdict_eq_error_iff.1 rejected
  · exact ⟨d.name, given⟩
  · exact ⟨Text.trim d.valueType, given⟩

/-- A declaration is accepted exactly when its member is well shaped and its type, without the
blanks around it, is supported; its model is the only one that restates it; and its diagnostic is
the only one that names what is wrong with it first. -/
theorem verdict_iff (d : Declaration) :
    (∀ text, Text.trim d.valueType = text ↔ Text.IsTrimmed d.valueType text) ∧
    ((∃ model, d.verdict = .ok model) ↔
      d.IsWellShaped ∧ Text.trim d.valueType ∈ TypeRef.supportedTexts) ∧
    (∀ model, d.verdict = .ok model ↔ d.IsWellShaped ∧ model.Restates d) ∧
    ∀ diagnostic, d.verdict = .error diagnostic ↔
      diagnostic.location = d.location ∧
        (¬ d.IsWellShaped ∧ diagnostic.kind = .invalidShape ∧ diagnostic.arguments = [d.name] ∨
          d.IsWellShaped ∧ Text.trim d.valueType ∉ TypeRef.supportedTexts ∧
            diagnostic.kind = .unsupportedType ∧
            diagnostic.arguments = [Text.trim d.valueType]) := by
  refine ⟨fun _ => Text.trim_eq_iff, ⟨?_, ?_⟩, fun _ => verdict_eq_ok_iff,
    fun _ => verdict_eq_error_iff⟩
  · rintro ⟨model, accepted⟩
    obtain ⟨shaped, restates⟩ := verdict_eq_ok_iff.1 accepted
    refine ⟨shaped, TypeRef.mem_supportedTexts_iff.2 ⟨model.typeRef, ?_⟩⟩
    rw [restates.typeRef, restates.valueType]
  · rintro ⟨shaped, supported⟩
    obtain ⟨type, named⟩ := TypeRef.mem_supportedTexts_iff.1 supported
    exact ⟨_, verdict_of_supported shaped named.symm⟩

/-- An ideographic space and a no-break space around a type are dropped; a zero-width space is no
blank, so it makes the type another one. -/
theorem verdict_among_blanks :
    let container : Container := ⟨"Develop", "Limits", .value⟩
    let spaced := (method container "Depth" "\u3000int?\u00a0").withKey ""
    let joined := property container "Width" "\u200bint"
    (∃ model, spaced.verdict = .ok model ∧ model.valueType = "int?" ∧ model.key = "Depth") ∧
      ∃ diagnostic, joined.verdict = .error diagnostic ∧ diagnostic.kind = .unsupportedType ∧
        diagnostic.arguments = ["\u200bint"] := by
  intro container spaced joined
  obtain ⟨trimmed, accepted, restated, -⟩ := verdict_iff spaced
  obtain ⟨whole, -, -, rejected⟩ := verdict_iff joined
  have type : Text.trim spaced.valueType = "int?" :=
    (trimmed "int?").2
      ⟨⟨"\u3000", "\u00a0", by decide, by simp [Text.blanks]⟩, by simp [Text.blanks],
        by simp [Text.blanks]⟩
  have otherType : Text.trim joined.valueType = "\u200bint" :=
    (whole "\u200bint").2
      ⟨⟨"", "", by decide, by simp⟩, by simp [Text.blanks], by simp [Text.blanks]⟩
  have shaped : spaced.IsWellShaped := ⟨rfl, rfl, .inr rfl⟩
  constructor
  · obtain ⟨model, judged⟩ := accepted.2 ⟨shaped, by rw [type]; decide⟩
    obtain ⟨-, restates⟩ := (restated model).1 judged
    refine ⟨model, judged, restates.valueType.trans type, ?_⟩
    rcases restates.key with ⟨given, named⟩ | ⟨-, named⟩
    · exact absurd (Option.some.inj given).symm named
    · exact named
  · refine ⟨⟨.unsupportedType, none, ["\u200bint"]⟩,
      (rejected _).2 ⟨rfl, .inr ⟨?_, ?_, rfl, ?_⟩⟩, rfl, rfl⟩
    · exact ⟨rfl, rfl, .inl rfl⟩
    · rw [otherType]
      decide
    · rw [otherType]

end Declaration

end BuildConstants
