import BuildConstants.Path

/-!
# Declarations

A declaration is a member of a container that asks to be completed with a configured value. It is a
candidate: whether it can be completed is decided by `Declaration.verdict`.
-/

namespace BuildConstants

/-- How far a member can be seen. -/
inductive Accessibility where
  | pub
  | internal
  | prot
  | priv
  | protOrInternal
  | privAndProt
deriving DecidableEq, Inhabited

namespace Accessibility

/-- The modifiers of a member as they are written in generated text. -/
def keyword : Accessibility → String
  | pub => "public"
  | internal => "internal"
  | prot => "protected"
  | priv => "private"
  | protOrInternal => "protected internal"
  | privAndProt => "private protected"

/-- Every accessibility, with the names it is read from. The first name is the keyword. -/
def spellings : List (Accessibility × List String) :=
  [(pub, ["public"]), (internal, ["internal"]), (prot, ["protected"]), (priv, ["private"]),
    (protOrInternal, ["protected internal", "protected_internal"]),
    (privAndProt, ["private protected", "private_protected"])]

end Accessibility

/-- What a container is: a value type or a reference type. -/
inductive ContainerKind where
  | value
  | reference
deriving DecidableEq

namespace ContainerKind

instance : Inhabited ContainerKind :=
  ⟨reference⟩

def keyword : ContainerKind → String
  | value => "struct"
  | reference => "class"

/-- Both kinds, with the names they are read from. -/
def spellings : List (ContainerKind × List String) :=
  [(value, ["value"]), (reference, ["reference"])]

end ContainerKind

/-- A type that holds members. The empty namespace is the global one. -/
structure Container where
  namespaceName : String
  name : String
  kind : ContainerKind
deriving DecidableEq, Inhabited

/-- The form of a member. -/
inductive MemberShape where
  | property (hasGetter : Bool)
  | method (parameterCount : UInt64)
deriving DecidableEq, Inhabited

/-- A member can be read when it is a property with a getter or a method without parameters. -/
def MemberShape.hasAccessor : MemberShape → Bool
  | property hasGetter => hasGetter
  | method parameterCount => parameterCount = 0

/-- A place in a source file. -/
structure SourceLocation where
  file : Path
  line : Option UInt64
  column : Option UInt64
deriving DecidableEq, Inhabited

/-- The place as text: the file, the line behind a colon, and the column behind another. Without a
line the column is not shown. -/
def SourceLocation.text (location : SourceLocation) : String :=
  match location.line, location.column with
  | none, _ => location.file.text
  | some line, none => s!"{location.file.text}:{line}"
  | some line, some column => s!"{location.file.text}:{line}:{column}"

/-- A member that asks for a configured value. -/
structure Declaration where
  name : String
  valueType : String
  accessibility : Accessibility
  isStatic : Bool
  isCompletable : Bool
  shape : MemberShape
  keyOverride : Option String
  container : Container
  location : Option SourceLocation
deriving DecidableEq, Inhabited

namespace Declaration

/-- A public static property with a getter. -/
def property (container : Container) (name valueType : String) : Declaration :=
  { name, valueType, container, accessibility := .pub, isStatic := true, isCompletable := true,
    shape := .property true, keyOverride := none, location := none }

/-- A public static method without parameters. -/
def method (container : Container) (name valueType : String) : Declaration :=
  { property container name valueType with shape := .method 0 }

def withKey (d : Declaration) (key : String) : Declaration :=
  { d with keyOverride := some key }

def withAccessibility (d : Declaration) (accessibility : Accessibility) : Declaration :=
  { d with accessibility }

def withLocation (d : Declaration) (location : SourceLocation) : Declaration :=
  { d with location := some location }

def hasAccessor (d : Declaration) : Bool :=
  d.shape.hasAccessor

/-- The key that configures the member: the override when it is present and not empty, and else the
name. -/
def key (d : Declaration) : String :=
  match d.keyOverride with
  | none | some "" => d.name
  | some key => key

/-- What declarations are told apart by: everything but the spelling of the file's path, of which
only the components count. -/
structure Identity where
  name : String
  valueType : String
  accessibility : Accessibility
  isStatic : Bool
  isCompletable : Bool
  shape : MemberShape
  keyOverride : Option String
  container : Container
  location : Option (List Path.Component × Option UInt64 × Option UInt64)
deriving DecidableEq

def identity (d : Declaration) : Identity :=
  { name := d.name, valueType := d.valueType, accessibility := d.accessibility,
    isStatic := d.isStatic, isCompletable := d.isCompletable, shape := d.shape,
    keyOverride := d.keyOverride, container := d.container,
    location := d.location.map fun place => (place.file.components, place.line, place.column) }

end Declaration

end BuildConstants
