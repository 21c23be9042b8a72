import BuildConstants.Proofs.SourceUnit.Completion
import BuildConstants.Proofs.SourceUnit.Frame

/-!
# Configured text stays in its literal

Where a member of a text type has a value, the literal that a reader finds behind the arrow of its
completion ends right before the semicolon and stands for exactly that value, whatever characters
the value has and whatever follows in the unit: `Group.text_read_back`.
-/

namespace BuildConstants

namespace Text

variable {piece : String} {pieces : List String}

/-- Each of the joined texts stands in the whole. -/
theorem exists_joinWith_eq (separator : String) (member : piece ∈ pieces) :
    ∃ front behind, joinWith separator pieces = front ++ piece ++ behind := by
  induction pieces with
  | nil => cases member
  | cons first rest ih =>
      cases rest with
      | nil =>
          rw [List.mem_singleton.1 member]
          exact ⟨"", "", by simp [joinWith]⟩
      | cons next others =>
          rw [joinWith, String.intercalate_cons_cons]
          rcases List.mem_cons.1 member with rfl | later
          · exact ⟨"", separator ++ joinWith separator (next :: others), by
              simp [joinWith, String.append_assoc]⟩
          · obtain ⟨front, behind, whole⟩ := ih later
            refine ⟨first ++ separator ++ front, behind, ?_⟩
            rw [← joinWith, whole]
            simp [String.append_assoc]

end Text

/-- Each completion has a line of its own in the text of a unit. -/
theorem Container.exists_framed_eq {container : Container} {text : String} {texts : List String}
    (member : text ∈ texts) :
    ∃ front behind, container.framed texts = front ++ text ++ "\n" ++ behind := by
  obtain ⟨front, behind, whole⟩ := Text.exists_joinWith_eq "\n"
    (List.mem_map_of_mem (f := fun text => container.margin ++ text ++ "\n") member)
  refine ⟨container.opening ++ front ++ container.margin, behind ++ container.closing, ?_⟩
  rw [framed, whole]
  simp only [String.append_assoc]

theorem TypeRef.base_of_text {type : TypeRef}
    (named : type.text = "string" ∨ type.text = "string?") : type.base = .string := by
  obtain ⟨base, optional⟩ := type
  revert named
  cases base <;> cases optional <;> decide

namespace Model

/-- What stands in front of the expression of the member in its completion. -/
def lead (model : Model) : String :=
  model.accessibility.keyword ++ " static partial " ++ model.valueType ++ " " ++
    model.memberName ++ model.parameterText ++ " => "

/-- The member is accepted and has a text type, with or without a question mark. -/
structure IsText (model : Model) : Prop where
  accepted : ∃ d : Declaration, d.verdict = .ok model
  valueType : model.valueType = "string" ∨ model.valueType = "string?"

variable {model : Model}

theorem completion_eq (model : Model) (value : Option String) :
    model.completion value = model.lead ++ model.expression value ++ ";" := by
  apply String.toList_inj.1
  rw [toList_completion]
  simp [lead]

/-- The value of a text type is expressed by its literal. -/
theorem IsText.expression_eq (isText : model.IsText) (value : String) :
    model.expression (some value) = Text.Quoted.literal value := by
  obtain ⟨⟨d, accepted⟩, valueType⟩ := isText
  rw [(Declaration.of_verdict_eq_ok accepted).1] at valueType
  rw [expression, TypeRef.express, TypeRef.base_of_text valueType]
  rfl

end Model

namespace Text.Quoted

variable {value other : String}

theorem literal_injective (same : literal value = literal other) : value = other := by
  have isRead : readLiteral (literal value ++ "") = some (value, "") :=
    readLiteral_eq_some_iff.2 ⟨rfl, by simp⟩
  have isOther : readLiteral (literal other ++ "") = some (other, "") :=
    readLiteral_eq_some_iff.2 ⟨rfl, by simp⟩
  rw [same, isOther] at isRead
  exact (Prod.mk.inj (Option.some.inj isRead)).1.symm

theorem literal_ne_unconfigured (value : String) : literal value ≠ unconfigured := by
  intro same
  have letters := congrArg String.toList same
  simp [literal, unconfigured] at letters

end Text.Quoted

namespace Group

open Text.Quoted

/-- What a reader takes for a literal is the expression of exactly one text, and no more than that
is taken. So in the unit of a group, the expression of a member of a text type that has a value is
one literal, which stands for the value and ends at the semicolon of the member; and texts are told
apart from each other and from a value that is missing. -/
theorem text_read_back :
    (∀ whole value after : String,
      readLiteral whole = some (value, after) ↔
        whole = ValueType.string.express value ++ after ∧ after.toList.head? ≠ some '"') ∧
    (∀ (g : Group) (properties : PropertyMap) (model : Model) (value : String),
      model ∈ g.members → model.IsText → model.value? properties = some value →
      ∃ front behind,
        g.unitText properties = front ++ model.completion (some value) ++ "\n" ++ behind ∧
        model.completion (some value) = model.lead ++ model.expression (some value) ++ ";" ∧
        readLiteral (model.expression (some value) ++ (";\n" ++ behind)) =
          some (value, ";\n" ++ behind)) ∧
    ∀ model other : Model, model.IsText → other.IsText →
      (∀ value text : String,
        model.expression (some value) = other.expression (some text) → value = text) ∧
      ∀ value : String, model.expression (some value) ≠ other.expression none := by
  refine ⟨fun _ _ _ => readLiteral_eq_some_iff, ?_, ?_⟩
  · intro g properties model value member isText configured
    have stands : model.completion (some value) ∈
        g.members.map fun model => model.completion (model.value? properties) :=
      List.mem_map.2 ⟨model, member, by rw [configured]⟩
    obtain ⟨front, behind, whole⟩ := g.container.exists_framed_eq stands
    refine ⟨front, behind, (g.unitText_eq properties).trans whole, model.completion_eq _, ?_⟩
    rw [isText.expression_eq]
    exact readLiteral_eq_some_iff.2 ⟨rfl, by simp⟩
  · intro model other isText isTextOther
    refine ⟨fun value text same => ?_, fun value same => ?_⟩
    · rw [isText.expression_eq, isTextOther.expression_eq] at same
      exact literal_injective same
    · rw [isText.expression_eq] at same
      exact literal_ne_unconfigured value same

/-- A value that is written like the end of its literal, of its member and of its container is read
back whole. -/
theorem hostile_text_read_back :
    ∃ front behind,
      (start
          { namespaceName := "", containerName := "Labels", containerKind := .reference,
            accessibility := .pub, valueType := "string?", typeRef := ⟨.string, true⟩,
            memberName := "Motto", shape := .method 0, key := "Motto" }).unitText
          (.resolve (some "Motto=\"; \x7d\n\"\"")) =
        front ++ "public static partial string? Motto() => @\"\"\"; \x7d\n\"\"\"\"\";" ++ "\n" ++
          behind ∧
      readLiteral ("@\"\"\"; \x7d\n\"\"\"\"\"" ++ (";\n" ++ behind)) =
        some ("\"; \x7d\n\"\"", ";\n" ++ behind) := by
  let motto : Model :=
    { namespaceName := "", containerName := "Labels", containerKind := .reference,
      accessibility := .pub, valueType := "string?", typeRef := ⟨.string, true⟩,
      memberName := "Motto", shape := .method 0, key := "Motto" }
  have isText : motto.IsText :=
    ⟨⟨.method ⟨"", "Labels", .reference⟩ "Motto" " string? ", by decide⟩, .inr rfl⟩
  obtain ⟨-, inUnits, -⟩ := text_read_back
  obtain ⟨front, behind, whole, -, readBack⟩ := inUnits (start motto)
    (.resolve (some "Motto=\"; \x7d\n\"\"")) motto "\"; \x7d\n\"\"" (by simp [start]) isText
    (by decide +kernel)
  have expressed : motto.expression (some "\"; \x7d\n\"\"") = "@\"\"\"; \x7d\n\"\"\"\"\"" := by
    decide +kernel
  have completed : motto.completion (some "\"; \x7d\n\"\"") =
      "public static partial string? Motto() => @\"\"\"; \x7d\n\"\"\"\"\";" := by
    decide +kernel
  rw [expressed] at readBack
  rw [completed] at whole
  exact ⟨front, behind, whole, readBack⟩

end Group

end BuildConstants
