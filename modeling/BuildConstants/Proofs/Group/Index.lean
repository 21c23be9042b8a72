import BuildConstants.Proofs.Group.Partition
import Mathlib.Logic.Function.Basic

/-!
# Groups found by position

The group of a scope can be found in a table of positions instead of by a search. The table stays
coherent with the groups, so no position in it is out of range, and the groups are the same ones:
the stable partition of the models by scope. `Group.ofModels_stable` states this.
-/

namespace BuildConstants

theorem getElem?_snoc {α : Type} (xs : List α) (x : α) (position : Nat) :
    (xs ++ [x])[position]? = if position = xs.length then some x else xs[position]? := by
  rcases Nat.lt_trichotomy position xs.length with inside | rfl | outside
  · rw [List.getElem?_append_left inside, if_neg (Nat.ne_of_lt inside)]
  · rw [List.getElem?_concat_length, if_pos rfl]
  · rw [if_neg (Nat.ne_of_gt outside), List.getElem?_eq_none (Nat.le_of_lt outside),
      List.getElem?_eq_none (by rw [List.length_append]; exact outside)]

/-- Groups in the making, with the position of the group of each scope. -/
structure Grouping where
  groups : List Group
  position? : String × String → Option Nat

namespace Grouping

def empty : Grouping :=
  ⟨[], fun _ => none⟩

/-- Adds a model to the group at the position of its scope, or to a new one behind the others. It
fails when the position is out of range. -/
def add? (grouping : Grouping) (model : Model) : Option Grouping :=
  match grouping.position? model.scope with
  | some position =>
    grouping.groups[position]?.map fun g =>
      let extended := { g with members := g.members ++ [model] }
      { grouping with groups := grouping.groups.set position extended }
  | none =>
    some
      { groups := grouping.groups ++ [Group.start model]
        position? :=
          Function.update grouping.position? model.scope (some grouping.groups.length) }

/-- Groups models through the table. -/
def ofModels? (models : List Model) : Option Grouping :=
  models.foldlM add? empty

/-- The table has the position of each group, under its scope, and no other. -/
def Coherent (grouping : Grouping) : Prop :=
  ∀ scope position, grouping.position? scope = some position ↔
    (grouping.groups.map Group.scope)[position]? = some scope

variable {grouping : Grouping} {model : Model} {groups : List Group} {g : Group} {position : Nat}

theorem coherent_empty : empty.Coherent := by
  simp [Coherent, empty]

/-- A model is placed in the first group of its scope. -/
theorem place_of_first (isThere : groups[position]? = some g) (isOfScope : g.scope = model.scope)
    (first : ∀ earlier < position, (groups.map Group.scope)[earlier]? ≠ some model.scope) :
    Group.place model groups =
      groups.set position { g with members := g.members ++ [model] } := by
  induction groups generalizing position with
  | nil => simp at isThere
  | cons head rest ih =>
      rw [Group.place]
      cases position with
      | zero =>
          obtain rfl : head = g := by simpa using isThere
          rw [if_pos (Group.admits_iff.2 isOfScope), List.set_cons_zero]
      | succ position =>
          have differs : head.scope ≠ model.scope := by simpa using first 0 (Nat.succ_pos _)
          have further : ∀ earlier < position,
              (rest.map Group.scope)[earlier]? ≠ some model.scope := fun earlier isLess => by
            simpa using first (earlier + 1) (Nat.succ_lt_succ isLess)
          rw [if_neg fun admitted => differs (Group.admits_iff.1 admitted), List.set_cons_succ,
            ih (by simpa using isThere) further]

/-- A model whose scope no group has is placed in a new one. -/
theorem place_of_unknown (unknown : model.scope ∉ groups.map Group.scope) :
    Group.place model groups = groups ++ [Group.start model] := by
  induction groups with
  | nil => rfl
  | cons head rest ih =>
      obtain ⟨differs, others⟩ := List.ne_and_not_mem_of_not_mem_cons unknown
      rw [Group.place, if_neg fun admitted => differs (Group.admits_iff.1 admitted).symm, ih others,
        List.cons_append]

/-- No position in a coherent table is out of range: its group is there and has the scope. -/
theorem Coherent.getElem? {scope : String × String} (coherent : grouping.Coherent)
    (known : grouping.position? scope = some position) :
    ∃ g, grouping.groups[position]? = some g ∧ g.scope = scope := by
  have scopeThere := (coherent scope position).1 known
  rwa [List.getElem?_map, Option.map_eq_some_iff] at scopeThere

/-- A scope that is not in a coherent table is that of no group. -/
theorem Coherent.notMem {scope : String × String} (coherent : grouping.Coherent)
    (unknown : grouping.position? scope = none) : scope ∉ grouping.groups.map Group.scope := by
  intro member
  obtain ⟨position, isThere⟩ := List.mem_iff_getElem?.1 member
  rw [← coherent, unknown] at isThere
  cases isThere

/-- Adding a model to coherent groups finds its position in range or opens a group. It places the
model, and keeps the groups coherent. -/
theorem Coherent.add? (coherent : grouping.Coherent) (model : Model) :
    ∃ next, grouping.add? model = some next ∧ next.Coherent ∧
      next.groups = Group.place model grouping.groups := by
  cases known : grouping.position? model.scope with
  | some position =>
      obtain ⟨g, isThere, isOfScope⟩ := coherent.getElem? known
      let extended : Group := { g with members := g.members ++ [model] }
      refine ⟨{ grouping with groups := grouping.groups.set position extended }, ?_, ?_, ?_⟩
      · simp only [Grouping.add?, known, isThere, Option.map_some]
        rfl
      · have scopes : (grouping.groups.set position extended).map Group.scope =
            grouping.groups.map Group.scope := by
          obtain ⟨inRange, here⟩ := List.getElem?_eq_some_iff.1 isThere
          rw [← List.length_map Group.scope] at inRange
          have same : extended.scope = (grouping.groups.map Group.scope)[position] := by
            rw [List.getElem_map, here]
            rfl
          rw [List.map_set, same, List.set_getElem_self]
        intro scope other
        rw [scopes]
        exact coherent scope other
      · refine (place_of_first isThere isOfScope fun earlier isLess isOther => ?_).symm
        rw [← coherent, known] at isOther
        exact absurd (Option.some.inj isOther) (Nat.ne_of_gt isLess)
  | none =>
      have unknown := coherent.notMem known
      refine ⟨_, by rw [Grouping.add?, known], ?_, (place_of_unknown unknown).symm⟩
      intro scope position
      dsimp only
      rw [Function.update_apply, List.map_append, List.map_singleton, Group.scope_start,
        getElem?_snoc, List.length_map]
      by_cases same : scope = model.scope
      · subst same
        have absent : (grouping.groups.map Group.scope)[position]? ≠ some model.scope :=
          fun isThere => unknown (List.mem_of_getElem? isThere)
        by_cases isLast : position = grouping.groups.length
        · simp [isLast]
        · rw [if_pos rfl, if_neg isLast, Option.some.injEq]
          exact iff_of_false (Ne.symm isLast) absent
      · rw [if_neg same, coherent]
        by_cases isLast : position = grouping.groups.length
        · subst isLast
          simpa using Ne.symm same
        · rw [if_neg isLast]

/-- Grouping through the table never fails, and its groups are those of the search. -/
theorem exists_ofModels? (models : List Model) :
    ∃ grouping, ofModels? models = some grouping ∧ grouping.Coherent ∧
      grouping.groups = Group.ofModels models := by
  induction models using List.reverseRecOn with
  | nil => exact ⟨empty, rfl, coherent_empty, rfl⟩
  | append_singleton models model ih =>
      obtain ⟨grouping, grouped, coherent, groups⟩ := ih
      obtain ⟨next, added, nextCoherent, placed⟩ := coherent.add? model
      refine ⟨next, ?_, nextCoherent, ?_⟩
      · rw [ofModels?, List.foldlM_append, ← ofModels?, grouped]
        simp [added]
      · rw [placed, groups, Group.ofModels, Group.ofModels, List.foldl_append]
        rfl

end Grouping

namespace Group

/-- The group is that of a scope among some models: it holds the models of the scope in their order,
and its container has the kind that the first of them gives it. -/
structure IsAmong (models : List Model) (scope : String × String) (g : Group) : Prop where
  isOfScope : g.scope = scope
  members : g.members = models.filter (·.scope = scope)
  kind : some g.container.kind = g.members.head?.map (·.containerKind)

variable {models : List Model} {scope : String × String} {g : Group}

/-- A scope that occurs has one group. -/
theorem isAmong_iff (known : scope ∈ Model.scopes models) :
    IsAmong models scope g ↔ g = among models scope := by
  obtain ⟨head, rest, filtered⟩ := List.exists_cons_of_ne_nil (Model.mem_scopes_iff_filter.1 known)
  constructor
  · rintro ⟨rfl, members, kind⟩
    rw [members, filtered] at kind
    obtain ⟨⟨namespaceName, name, _⟩, _⟩ := g
    cases kind
    rw [among, filtered]
    exact congrArg (Group.mk _) (members.trans filtered)
  · rintro rfl
    exact ⟨rfl, rfl, by simp [among, filtered]⟩

/-- Groups that stand for scopes one by one are those of the scopes. -/
theorem forall₂_isAmong_iff {scopes : List (String × String)} {groups : List Group}
    (known : ∀ scope ∈ scopes, scope ∈ Model.scopes models) :
    List.Forall₂ (IsAmong models) scopes groups ↔ groups = scopes.map (among models) := by
  induction scopes generalizing groups with
  | nil => simp
  | cons scope rest ih =>
      obtain ⟨isKnown, others⟩ := List.forall_mem_cons.1 known
      simp only [List.forall₂_cons_left_iff, isAmong_iff isKnown, ih others, List.map_cons]
      constructor
      · rintro ⟨_, _, rfl, rfl, rfl⟩
        rfl
      · rintro rfl
        exact ⟨_, _, rfl, rfl, rfl⟩

/-- Grouping is the stable partition by scope: there is one group for each scope, in the order in
which the scopes occur first, with all models of the scope in their order and with the kind of the
first of them, whatever the others say. Through a table of positions the same groups are made, and
no position in it is out of range. -/
theorem ofModels_stable (models : List Model) :
    (∀ groups, List.Forall₂ (IsAmong models) (Model.scopes models) groups ↔
      groups = ofModels models) ∧
    ((ofModels models).map Group.scope).Nodup ∧
    (∀ g ∈ ofModels models, g.members ≠ []) ∧
    ((ofModels models).flatMap (·.members)).Perm models ∧
    ∃ grouping, Grouping.ofModels? models = some grouping ∧
      grouping.groups = ofModels models ∧
      ∀ scope position, grouping.position? scope = some position ↔
        ∃ g, grouping.groups[position]? = some g ∧ g.scope = scope := by
  refine ⟨fun groups => ?_, nodup_scopes_ofModels models, fun g member => ?_,
    flatMap_members_ofModels models, ?_⟩
  · rw [ofModels_eq]
    exact forall₂_isAmong_iff fun _ member => member
  · rw [ofModels_eq] at member
    obtain ⟨scope, known, rfl⟩ := List.mem_map.1 member
    exact Model.mem_scopes_iff_filter.1 known
  · obtain ⟨grouping, grouped, coherent, groups⟩ := Grouping.exists_ofModels? models
    refine ⟨grouping, grouped, groups, fun scope position => ?_⟩
    rw [coherent, List.getElem?_map, Option.map_eq_some_iff]

end Group

end BuildConstants
