import BuildConstants.Model

/-!
# Declarations that are not told apart

Declarations with one identity differ at most in the spelling of the file in their location. Their
verdicts differ at most in that location.
-/

namespace BuildConstants

/-- The diagnostic as if it were about another place. -/
def Diagnostic.relocated (location : Option SourceLocation) (diagnostic : Diagnostic) :
    Diagnostic :=
  { diagnostic with location }

/-- What a diagnostic says, wherever it says it: its kind and its arguments. -/
def Diagnostic.complaint (diagnostic : Diagnostic) : DiagnosticKind × List String :=
  (diagnostic.kind, diagnostic.arguments)

@[simp] theorem mapError_ok {α ε δ : Type} (f : ε → δ) (value : α) :
    (Except.ok value).mapError f = .ok value := rfl

@[simp] theorem mapError_error {α ε δ : Type} (f : ε → δ) (error : ε) :
    (Except.error error : Except ε α).mapError f = .error (f error) := rfl

namespace Declaration

variable {d e : Declaration}

/-- The verdict on a declaration is the one on any declaration of the same identity, moved to its
own place. -/
theorem verdict_eq_relocated (same : d.identity = e.identity) :
    d.verdict = e.verdict.mapError (Diagnostic.relocated d.location) := by
  obtain ⟨name, valueType, accessibility, isStatic, isCompletable, shape, keyOverride, container,
    location⟩ := d
  obtain ⟨_, _, _, _, _, _, _, _, otherLocation⟩ := e
  simp only [identity, Identity.mk.injEq] at same
  obtain ⟨rfl, rfl, rfl, rfl, rfl, rfl, rfl, rfl, _⟩ := same
  unfold verdict hasAccessor
  dsimp only
  by_cases misshapen : (!isStatic || !isCompletable || !shape.hasAccessor) = true
  · rw [if_pos misshapen, if_pos misshapen]
    rfl
  · rw [if_neg misshapen, if_neg misshapen]
    cases TypeRef.ofText? valueType <;> rfl

/-- Declarations of one identity are accepted as the same model or rejected alike. -/
theorem model?_eq (same : d.identity = e.identity) : d.verdict.model? = e.verdict.model? := by
  rw [verdict_eq_relocated same]
  cases e.verdict <;> rfl

theorem complaint_eq (same : d.identity = e.identity) :
    d.verdict.mapError Diagnostic.complaint = e.verdict.mapError Diagnostic.complaint := by
  rw [verdict_eq_relocated same]
  cases e.verdict <;> rfl

/-- A diagnostic against a declaration is about the declaration's place. -/
theorem location_of_rejected {diagnostic : Diagnostic} (rejected : d.verdict = .error diagnostic) :
    diagnostic.location = d.location := by
  rw [verdict_eq_relocated rfl] at rejected
  cases judged : d.verdict with
  | ok model => simp [judged] at rejected
  | error _ =>
      simp only [judged, mapError_error, Except.error.injEq] at rejected
      exact rejected ▸ rfl

/-- Two declarations of one identity have the same verdict exactly when they are accepted or stand
at the same place. -/
theorem verdict_eq_iff (same : d.identity = e.identity) :
    d.verdict = e.verdict ↔ d.verdict.diagnostic? = none ∨ d.location = e.location := by
  cases judged : e.verdict with
  | ok model => simp [verdict_eq_relocated same, judged, Verdict.diagnostic?]
  | error diagnostic =>
      have place := location_of_rejected judged
      simp only [verdict_eq_relocated same, judged, mapError_error, Verdict.diagnostic?,
        Except.error.injEq, reduceCtorEq, false_or, ← place]
      constructor
      · exact fun moved => (congrArg Diagnostic.location moved : _)
      · exact fun stays => stays ▸ rfl

/-- A declaration that is rejected for its type, on line 12 of the given file. -/
def unsupportedIn (file : String) : Declaration :=
  (property ⟨"Develop", "Variants", .reference⟩ "Ratio" "double").withLocation
    ⟨⟨file⟩, some 12, none⟩

end Declaration

end BuildConstants
