import BuildConstants.Declaration.Document
import BuildConstants.Property.Document
import BuildConstants.Proofs.Document.Record
import BuildConstants.Proofs.Document.Value
import BuildConstants.Proofs.Property.RoundTrip

/-!
# Declarations survive being written

Every declaration is read back from the document that it is written as, and so is each of its parts:
a record is written with its fields in their order, so it is enough that each field is read back.
-/

namespace BuildConstants

open Document (Field RecordLayout)
open Document.RecordLayout (Gathers entriesOf matches_given readTable_of_matches)

/-! ## Scalars -/

namespace Document

theorem asCount_count (n : UInt64) : asCount (count n) = .ok n :=
  (decides_asCount (count n) n).2 .integer

theorem asOption_integer {α : Type} (read : Decoder α) (value : Int) :
    asOption read (.integer value) = (read (.integer value)).map some := rfl

theorem asOption_count (n : UInt64) : asOption asCount (count n) = .ok (some n) := by
  rw [count, asOption_integer, ← count, asCount_count]
  rfl

/-- A value that may be absent is written as null when it is. -/
theorem asOption_nullable {α : Type} {read : Decoder α} {encode : α → Document}
    (restored : ∀ value, asOption read (encode value) = .ok (some value)) (value : Option α) :
    asOption read (nullable encode value) = .ok value := by
  cases value with
  | none => rfl
  | some value => exact restored value

/-- A field reads what its value is read as. -/
theorem Field.read_of {σ α : Type} {name : String} {omission : Omission} {read : Decoder α}
    {set : α → σ → σ} {doc : Document} {value : α} (restored : read doc = .ok value) (state : σ) :
    (Field.of name omission read set).read doc state = .ok (set value state) :=
  congrArg (Except.map (set · state)) restored

end Document

theorem Accessibility.ofDocument_toDocument (accessibility : Accessibility) :
    ofDocument .json accessibility.toDocument = .ok accessibility := by
  cases accessibility <;> rfl

theorem ContainerKind.ofDocument_toDocument (kind : ContainerKind) :
    ofDocument .json kind.toDocument = .ok kind := by
  cases kind <;> rfl

/-! ## Records -/

theorem Container.ofDocument_toDocument (container : Container) :
    ofDocument .json container.toDocument = .ok container := by
  have distinct : (layout .json).names.Nodup := by decide
  refine readTable_of_matches distinct (matches_given
    [some (.text container.namespaceName), some (.text container.name),
      some container.kind.toDocument] distinct rfl fun pair member _ => ?_) ?_
  · revert pair
    simp [layout]
  · refine .cons rfl (.cons rfl ?_)
    exact .cons (Field.read_of (ContainerKind.ofDocument_toDocument _) _) .nil

/-- A line and a column are written only where they are given. -/
theorem SourceLocation.ofDocument_toDocument (location : SourceLocation) :
    ofDocument .json location.toDocument = .ok location := by
  have distinct : layout.names.Nodup := by decide
  have isMatch := matches_given
    [some (.text location.file.text), location.line.map .count, location.column.map .count]
    distinct rfl (by simp [layout, Field.of])
  obtain ⟨file, line, column⟩ := location
  cases line with
  | none =>
      cases column with
      | none => exact readTable_of_matches distinct isMatch (.cons rfl .nil)
      | some column =>
          exact readTable_of_matches distinct isMatch
            (.cons rfl (.cons (Field.read_of (Document.asOption_count column) _) .nil))
  | some line =>
      cases column with
      | none =>
          exact readTable_of_matches distinct isMatch
            (.cons rfl (.cons (Field.read_of (Document.asOption_count line) _) .nil))
      | some column =>
          exact readTable_of_matches distinct isMatch
            (.cons rfl (.cons (Field.read_of (Document.asOption_count line) _)
              (.cons (Field.read_of (Document.asOption_count column) _) .nil)))

/-- The form of a shape is told from its contents, wherever the shape stands. -/
theorem MemberShape.ofDocumentWithin_toDocument (depth : Nat) (shape : MemberShape) :
    ofDocumentWithin depth shape.toDocument = .ok shape := by
  have distinct (form : Form) : (contents form).names.Nodup := by cases form <;> decide
  cases shape with
  | property hasGetter =>
      have separated : separate depth none
          [(.text formField, .text "property"), (.text "has_getter", .bool hasGetter)] =
          .ok (some .property, [(.text "has_getter", .bool hasGetter)]) := by
        cases depth <;> rfl
      have read := readTable_of_matches (distinct .property) (matches_given
        [some (.bool hasGetter)] (distinct .property) rfl (by simp [contents])) (.cons rfl .nil)
      exact bind_eq_ok.2 ⟨_, separated, read⟩
  | method parameterCount =>
      have separated : separate depth none
          [(.text formField, .text "method"), (.text "parameter_count", .count parameterCount)] =
          .ok (some .method, [(.text "parameter_count", .count parameterCount)]) := by
        cases depth <;> rfl
      have read := readTable_of_matches (distinct .method) (matches_given
        [some (.count parameterCount)] (distinct .method) rfl (by simp [contents]))
        (.cons (Field.read_of (Document.asCount_count parameterCount) _) .nil)
      exact bind_eq_ok.2 ⟨_, separated, read⟩

theorem Declaration.ofDocument_toDocument (d : Declaration) :
    ofDocument .json d.toDocument = .ok d := by
  have distinct : (layout .json).names.Nodup := by decide
  refine readTable_of_matches distinct (matches_given
    [some (.text d.name), some (.text d.valueType), some d.accessibility.toDocument,
      some (.bool d.isStatic), some (.bool d.isCompletable), some d.shape.toDocument,
      some (.nullable .text d.keyOverride), some d.container.toDocument,
      some (.nullable SourceLocation.toDocument d.location)] distinct rfl (by simp [layout])) ?_
  refine .cons rfl (.cons rfl ?_)
  refine .cons (Field.read_of d.accessibility.ofDocument_toDocument _) (.cons rfl (.cons rfl ?_))
  refine .cons (Field.read_of (d.shape.ofDocumentWithin_toDocument _) _) ?_
  refine .cons (Field.read_of (Document.asOption_nullable (fun _ => rfl) d.keyOverride) _) ?_
  refine .cons (Field.read_of d.container.ofDocument_toDocument _) ?_
  have located (location : SourceLocation) :
      Document.asOption (SourceLocation.ofDocument .json) location.toDocument =
        .ok (some location) :=
    congrArg (Except.map some) location.ofDocument_toDocument
  exact .cons (Field.read_of (Document.asOption_nullable located d.location) _) .nil

/-- A property map is written entry by entry in the order of its keys. -/
theorem PropertyMap.ofDocument_toDocument (m : PropertyMap) :
    ofDocument .json m.toDocument = .ok m := by
  rw [toDocument, Document.record, List.map_map]
  refine bind_eq_ok.2 ⟨m.entries, mapM_eq_ok.2 ?_, congrArg Except.ok m.ofList_entries⟩
  rw [List.forall₂_map_left_iff, List.forall₂_same]
  exact fun _ _ => rfl

/-! ## The whole -/

/-- The written form of declarations loses nothing: each of them is read back as it was, and so are
containers, shapes, locations and property maps that stand alone. An accessibility is written as the
keyword that goes into generated text, and it is also read, in every format, from its keyword with
underscores in place of spaces. -/
theorem restored_from_document :
    (∀ d : Declaration, Declaration.ofDocument .json d.toDocument = .ok d) ∧
    (∀ container : Container, Container.ofDocument .json container.toDocument = .ok container) ∧
    (∀ shape : MemberShape, MemberShape.ofDocument shape.toDocument = .ok shape) ∧
    (∀ location : SourceLocation,
      SourceLocation.ofDocument .json location.toDocument = .ok location) ∧
    (∀ m : PropertyMap, PropertyMap.ofDocument .json m.toDocument = .ok m) ∧
    ∀ accessibility : Accessibility, accessibility.toDocument = .text accessibility.keyword ∧
      ∀ format, Accessibility.ofDocument format
        (.text (accessibility.keyword.map fun c => if c = ' ' then '_' else c)) =
          .ok accessibility := by
  refine ⟨Declaration.ofDocument_toDocument, Container.ofDocument_toDocument,
    MemberShape.ofDocumentWithin_toDocument _, SourceLocation.ofDocument_toDocument,
    PropertyMap.ofDocument_toDocument, fun accessibility => ⟨?_, fun format => ?_⟩⟩
  · cases accessibility <;> rfl
  · cases accessibility <;> cases format <;> decide +kernel

end BuildConstants
