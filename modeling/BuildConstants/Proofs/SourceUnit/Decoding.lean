import BuildConstants.Proofs.SourceUnit.Completion
import BuildConstants.Proofs.SourceUnit.Frame

/-!
# Reading units

The text of the unit of a legible group tells its container and what is baked into each member:
`Group.eq_of_unitText_eq`. The frame is read line by line, and behind each member the next character
tells whether another one follows.
-/

namespace BuildConstants

namespace Container

/-- The namespace and the name end with their lines. -/
structure Legible (container : Container) : Prop where
  namespaceName : '\n' ∉ container.namespaceName.toList
  name : '\n' ∉ container.name.toList

variable {container other : Container} {behind rest : List Char}

/-- The lines that every unit starts with. -/
def lead : String :=
  "// <auto-generated />\n#nullable enable\n\n"

/-- The line that opens the container. -/
def head (container : Container) : String :=
  "partial " ++ container.kind.keyword ++ " " ++ container.name ++ "\n"

theorem opening_of_global (isGlobal : container.namespaceName = "") :
    container.opening = lead ++ (container.head ++ "\x7b\n") := by
  rw [head, ContainerKind.keyword_eq]
  exact congrArg (lead ++ ·) (if_pos isGlobal)

theorem opening_of_named (isNamed : container.namespaceName ≠ "") :
    container.opening =
      lead ++ ("namespace " ++ container.namespaceName ++ "\n" ++ "\x7b\n" ++ "    " ++
        container.head ++ "    \x7b\n") := by
  rw [head, ContainerKind.keyword_eq]
  exact congrArg (lead ++ ·) (if_neg isNamed)

/-- The keyword of a kind ends at the space behind it. -/
theorem keyword_append_inj {first second : ContainerKind}
    (same : first.keyword.toList ++ ' ' :: behind = second.keyword.toList ++ ' ' :: rest) :
    first = second ∧ behind = rest := by
  cases first <;> cases second <;> simp [ContainerKind.keyword] at same ⊢ <;> exact same

theorem head_append_inj (legible : container.Legible) (legibleOther : other.Legible)
    (same : container.head.toList ++ behind = other.head.toList ++ rest) :
    container.kind = other.kind ∧ container.name = other.name ∧ behind = rest := by
  have letters : ∀ {container : Container} {behind : List Char},
      container.head.toList ++ behind = "partial ".toList ++ (container.kind.keyword.toList ++
        ' ' :: (container.name.toList ++ '\n' :: behind)) := by
    intro container behind
    simp only [head, String.toList_append, List.append_assoc]
    rfl
  rw [letters, letters] at same
  obtain ⟨kind, names⟩ := keyword_append_inj (List.append_cancel_left same)
  obtain ⟨name, rests⟩ := Text.append_cons_inj legible.name legibleOther.name names
  exact ⟨kind, String.toList_inj.1 name, rests⟩

/-- The opening of a unit tells whether there is a namespace. -/
theorem opening_append_ne (isGlobal : container.namespaceName = "")
    (isNamed : other.namespaceName ≠ "") :
    container.opening.toList ++ behind ≠ other.opening.toList ++ rest := by
  intro same
  rw [opening_of_global isGlobal, opening_of_named isNamed] at same
  simp only [String.toList_append, List.append_assoc] at same
  have begins := List.append_cancel_left same
  simp [head] at begins

/-- The opening of a unit tells the container. -/
theorem opening_append_inj (legible : container.Legible) (legibleOther : other.Legible)
    (same : container.opening.toList ++ behind = other.opening.toList ++ rest) :
    container = other ∧ behind = rest := by
  have whole : ∀ {container other : Container},
      container.namespaceName = other.namespaceName → container.kind = other.kind →
      container.name = other.name → container = other := by
    rintro ⟨_, _, _⟩ ⟨_, _, _⟩ rfl rfl rfl
    rfl
  by_cases isGlobal : container.namespaceName = "" <;>
    by_cases isGlobalOther : other.namespaceName = ""
  · rw [opening_of_global isGlobal, opening_of_global isGlobalOther] at same
    simp only [String.toList_append, List.append_assoc] at same
    obtain ⟨kind, name, rests⟩ :=
      head_append_inj legible legibleOther (List.append_cancel_left same)
    exact ⟨whole (isGlobal.trans isGlobalOther.symm) kind name, List.append_cancel_left rests⟩
  · exact absurd same (opening_append_ne isGlobal isGlobalOther)
  · exact absurd same.symm (opening_append_ne isGlobalOther isGlobal)
  · rw [opening_of_named isGlobal, opening_of_named isGlobalOther] at same
    simp only [String.toList_append, List.append_assoc] at same
    obtain ⟨namespaceName, heads⟩ := Text.append_cons_inj legible.namespaceName
      legibleOther.namespaceName (List.append_cancel_left (List.append_cancel_left same))
    obtain ⟨kind, name, rests⟩ := head_append_inj legible legibleOther
      (List.append_cancel_left (List.append_cancel_left heads))
    exact ⟨whole (String.toList_inj.1 namespaceName) kind name, List.append_cancel_left rests⟩

/-! ### Members -/

/-- What follows a member: the other members, each behind a blank line, and the closing. -/
def following (container : Container) : List String → List Char
  | [] => container.closing.toList
  | text :: others =>
    '\n' :: (container.margin.toList ++ (text.toList ++ '\n' :: container.following others))

/-- What stands behind the opening. -/
def body (container : Container) : List String → List Char
  | [] => container.closing.toList
  | text :: others =>
    container.margin.toList ++ (text.toList ++ '\n' :: container.following others)

theorem toList_body (container : Container) (texts : List String) :
    (Text.joinWith "\n" (texts.map fun text => container.margin ++ text ++ "\n") ++
      container.closing).toList = container.body texts := by
  induction texts with
  | nil => simp [Text.joinWith, body]
  | cons text others ih =>
      cases others with
      | nil => simp [Text.joinWith, body, following]
      | cons next more =>
          rw [List.map_cons, List.map_cons, Text.joinWith, String.intercalate_cons_cons]
          rw [List.map_cons, Text.joinWith] at ih
          simp only [String.append_assoc, String.toList_append] at ih ⊢
          rw [ih]
          simp [body, following]

theorem toList_framed (container : Container) (texts : List String) :
    (container.framed texts).toList = container.opening.toList ++ container.body texts := by
  rw [framed, String.append_assoc, String.toList_append, toList_body]

/-- The closing of a unit is no blank line. -/
theorem closing_ne_blank : container.closing.toList ≠ '\n' :: rest := by
  rw [closing]
  split <;> simp

/-- The closing of a unit is no line of a member. -/
theorem closing_ne_margin : container.closing.toList ≠ container.margin.toList ++ rest := by
  rw [closing, margin]
  split <;> simp

end Container

namespace Group

/-- What ends a name or a value in the unit of the group does not stand in it. -/
structure Legible (g : Group) (properties : PropertyMap) : Prop where
  container : g.container.Legible
  members : ∀ model ∈ g.members, model.Legible properties

/-- The completions of members. -/
def completions (members : List Model) (properties : PropertyMap) : List String :=
  members.map fun model => model.completion (model.value? properties)

variable {container : Container} {members others : List Model}
  {properties otherProperties : PropertyMap}

/-- What follows a member tells what is baked into the others. -/
theorem following_inj (legible : ∀ model ∈ members, model.Legible properties)
    (legibleOthers : ∀ model ∈ others, model.Legible otherProperties)
    (same : container.following (completions members properties) =
      container.following (completions others otherProperties)) :
    members.map (·.baked properties) = others.map (·.baked otherProperties) := by
  induction members generalizing others with
  | nil =>
      cases others with
      | nil => rfl
      | cons other more => exact absurd same Container.closing_ne_blank
  | cons model rest ih =>
      cases others with
      | nil => exact absurd same.symm Container.closing_ne_blank
      | cons other more =>
          have lines := List.append_cancel_left (List.cons.inj same).2
          obtain ⟨baked, behind⟩ := Model.completion_append_inj
            (legible model List.mem_cons_self) (legibleOthers other List.mem_cons_self) lines
          have onward := ih (fun model member => legible model (List.mem_cons_of_mem _ member))
            (fun other member => legibleOthers other (List.mem_cons_of_mem _ member)) behind
          rw [List.map_cons, List.map_cons, baked, onward]

/-- The members of a unit tell what is baked into them. -/
theorem body_inj (legible : ∀ model ∈ members, model.Legible properties)
    (legibleOthers : ∀ model ∈ others, model.Legible otherProperties)
    (same : container.body (completions members properties) =
      container.body (completions others otherProperties)) :
    members.map (·.baked properties) = others.map (·.baked otherProperties) := by
  cases members with
  | nil =>
      cases others with
      | nil => rfl
      | cons other more => exact absurd same Container.closing_ne_margin
  | cons model rest =>
      cases others with
      | nil => exact absurd same.symm Container.closing_ne_margin
      | cons other more =>
          -- Behind a blank line the same members would follow others.
          have behind : container.following (completions (model :: rest) properties) =
              container.following (completions (other :: more) otherProperties) :=
            congrArg ('\n' :: ·) same
          exact following_inj legible legibleOthers behind

/-- Units of legible groups have the same text only when the containers and what is baked into the
members are the same. -/
theorem eq_of_unitText_eq {g other : Group} (legible : g.Legible properties)
    (legibleOther : other.Legible otherProperties)
    (same : g.unitText properties = other.unitText otherProperties) :
    g.container = other.container ∧
      g.members.map (·.baked properties) = other.members.map (·.baked otherProperties) := by
  obtain ⟨container, members⟩ := g
  obtain ⟨otherContainer, others⟩ := other
  have letters : (container.framed (completions members properties)).toList =
      (otherContainer.framed (completions others otherProperties)).toList := by
    rw [unitText_eq, unitText_eq] at same
    exact congrArg String.toList same
  rw [Container.toList_framed, Container.toList_framed] at letters
  obtain ⟨rfl, bodies⟩ :=
    Container.opening_append_inj legible.container legibleOther.container letters
  exact ⟨rfl, body_inj legible.members legibleOther.members bodies⟩

end Group

end BuildConstants
