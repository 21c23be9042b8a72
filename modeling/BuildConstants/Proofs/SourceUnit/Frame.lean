import BuildConstants.SourceUnit.Text

/-!
# The frame of a unit

The text of the unit of a group is a frame that depends on its container alone, around one line for
each member in the order of the members, with a blank line between each two.
-/

namespace BuildConstants

theorem ContainerKind.keyword_eq (kind : ContainerKind) :
    kind.keyword = if kind = .value then "struct" else "class" := by
  cases kind <;> rfl

namespace Container

/-- What stands in front of the lines of the members. -/
def opening (container : Container) : String :=
  let word := if container.kind = .value then "struct" else "class"
  let head := "partial " ++ word ++ " " ++ container.name ++ "\n"
  "// <auto-generated />\n#nullable enable\n\n" ++
    if container.namespaceName = "" then head ++ "\x7b\n"
    else
      "namespace " ++ container.namespaceName ++ "\n" ++ "\x7b\n" ++ "    " ++ head ++ "    \x7b\n"

/-- What stands behind the lines of the members. -/
def closing (container : Container) : String :=
  if container.namespaceName = "" then "\x7d\n" else "    \x7d\n" ++ "\x7d\n"

/-- What stands in front of a member in its line. -/
def margin (container : Container) : String :=
  if container.namespaceName = "" then "    " else "        "

/-- The text of a unit that completes members of the container by the given texts. -/
def framed (container : Container) (completions : List String) : String :=
  container.opening ++
    Text.joinWith "\n" (completions.map fun text => container.margin ++ text ++ "\n") ++
    container.closing

end Container

namespace SourceUnit.Line

variable {first second : List Line}

@[simp] theorem renderAll_nil : renderAll [] = "" := rfl

@[simp] theorem renderAll_cons (line : Line) (rest : List Line) :
    renderAll (line :: rest) = line.render ++ renderAll rest :=
  String.join_cons

@[simp] theorem renderAll_append :
    renderAll (first ++ second) = renderAll first ++ renderAll second := by
  rw [renderAll, List.map_append, String.join_append]
  rfl

/-! The renderings that the frame is made of. -/

theorem render_zero (content : String) : (text 0 content).render = content ++ "\n" :=
  congrArg (· ++ "\n") String.empty_append

theorem render_one (content : String) : (text 1 content).render = "    " ++ content ++ "\n" := rfl

theorem render_two (content : String) :
    (text 2 content).render = "        " ++ content ++ "\n" := rfl

theorem renderAll_header : renderAll header = "// <auto-generated />\n#nullable enable\n\n" := rfl

/-- Lines with a blank one between each two, all at one depth. -/
theorem renderAll_intersperse_blank (depth : Nat) (texts : List String) :
    renderAll ((texts.map (text depth)).intersperse blank) =
      Text.joinWith "\n" (texts.map fun content => (text depth content).render) := by
  induction texts with
  | nil => rfl
  | cons content rest ih =>
      cases rest with
      | nil => simp [Text.joinWith]
      | cons next others =>
          simp only [List.map_cons, List.intersperse_cons_cons, renderAll_cons, Text.joinWith,
            String.intercalate_cons_cons, String.append_assoc] at ih ⊢
          rw [ih]
          rfl

theorem map_indent_intersperse_blank (depth : Nat) (texts : List String) :
    ((texts.map (text depth)).intersperse blank).map indent =
      (texts.map (text (depth + 1))).intersperse blank := by
  induction texts with
  | nil => rfl
  | cons content rest ih =>
      cases rest with
      | nil => rfl
      | cons next others =>
          simp only [List.map_cons, List.intersperse_cons_cons] at ih ⊢
          rw [ih]
          rfl

end SourceUnit.Line

namespace Group

theorem memberLines_values (g : Group) (properties : PropertyMap) :
    memberLines g.members (g.values properties) =
      ((g.members.map fun model => model.completion (model.value? properties)).map
        (SourceUnit.Line.text 0)).intersperse .blank := by
  rw [memberLines, values, List.zipWith_map_right, List.zipWith_self, List.map_map]
  rfl

open SourceUnit.Line in
/-- The text of the unit of a group is the frame of its container around its members. -/
theorem unitText_eq (g : Group) (properties : PropertyMap) :
    g.unitText properties =
      g.container.framed
        (g.members.map fun model => model.completion (model.value? properties)) := by
  rw [unitText, textWith, memberLines_values]
  unfold Container.framed Container.opening Container.closing Container.margin inNamespace
  unfold SourceUnit.Line.scope
  rw [ContainerKind.keyword_eq]
  by_cases isGlobal : g.container.namespaceName = ""
  · simp only [isGlobal, ↓reduceIte, renderAll_append, renderAll_header,
      map_indent_intersperse_blank, renderAll_intersperse_blank, renderAll_cons, renderAll_nil,
      render_zero, render_one, String.append_empty, String.append_assoc, Nat.zero_add]
    rfl
  · simp only [isGlobal, ↓reduceIte, renderAll_append, renderAll_header, List.map_append,
      List.map_cons, List.map_nil, indent, map_indent_intersperse_blank,
      renderAll_intersperse_blank, renderAll_cons, renderAll_nil, render_zero, render_one,
      render_two, String.append_empty, String.append_assoc, Nat.zero_add, Nat.reduceAdd]
    rfl

end Group

end BuildConstants
