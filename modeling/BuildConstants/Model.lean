import BuildConstants.Diagnostic
import BuildConstants.ValueType

/-!
# Models

A model is a declaration that can be completed, reduced to what the generated text needs. The
verdict on a declaration is its model or the diagnostic against it.
-/

namespace BuildConstants

/-- An accepted declaration. -/
structure Model where
  namespaceName : String
  containerName : String
  containerKind : ContainerKind
  accessibility : Accessibility
  /-- The type text without the blanks around it. -/
  valueType : String
  typeRef : TypeRef
  memberName : String
  shape : MemberShape
  /-- The key that configures the member. -/
  key : String
deriving DecidableEq, Inhabited

/-- The model of an accepted declaration, or the diagnostic against a rejected one. -/
abbrev Verdict : Type :=
  Except Diagnostic Model

instance : DecidableEq Verdict := fun
  | .error a, .error b =>
    if same : a = b then .isTrue (same ▸ rfl)
    else .isFalse fun equal => same (Except.error.inj equal)
  | .ok a, .ok b =>
    if same : a = b then .isTrue (same ▸ rfl)
    else .isFalse fun equal => same (Except.ok.inj equal)
  | .error _, .ok _ => .isFalse nofun
  | .ok _, .error _ => .isFalse nofun

/-- Judges a declaration. Its form is looked at first, so a member of the wrong form and of an
unsupported type is reported for its form. -/
def Declaration.verdict (d : Declaration) : Verdict :=
  if !d.isStatic || !d.isCompletable || !d.hasAccessor then
    .error (.invalidShape d.name d.location)
  else
    let valueType := Text.trim d.valueType
    match TypeRef.ofText? d.valueType with
    | none => .error (.unsupportedType valueType d.location)
    | some typeRef =>
      .ok
        { namespaceName := d.container.namespaceName, containerName := d.container.name,
          containerKind := d.container.kind, accessibility := d.accessibility, valueType, typeRef,
          memberName := d.name, shape := d.shape, key := d.key }

/-- The model of an accepted declaration. -/
def Verdict.model? : Verdict → Option Model
  | .ok model => some model
  | .error _ => none

/-- The diagnostic against a rejected declaration. -/
def Verdict.diagnostic? : Verdict → Option Diagnostic
  | .ok _ => none
  | .error diagnostic => some diagnostic

end BuildConstants
