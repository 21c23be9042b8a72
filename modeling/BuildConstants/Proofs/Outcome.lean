import Mathlib.Data.List.Forall2

/-!
# Outcomes

What steps end with that can fail: one behind the other, and one for each item of a list. The items
and their values are two paired lists.
-/

namespace BuildConstants

variable {ε α β : Type}

/-- What two steps end with, the second of which goes on from the first. -/
theorem bind_eq_ok {first : Except ε α} {next : α → Except ε β} {value : β} :
    first >>= next = .ok value ↔ ∃ middle, first = .ok middle ∧ next middle = .ok value := by
  cases first with
  | error error => simp [bind, Except.bind]
  | ok middle => simp [bind, Except.bind]

/-- What a step ends with whose value is changed afterwards. -/
theorem map_eq_ok {step : Except ε α} {change : α → β} {value : β} :
    step.map change = .ok value ↔ ∃ found, step = .ok found ∧ change found = value := by
  cases step with
  | error error => simp [Except.map]
  | ok found => simp [Except.map]

/-- Steps for the items of a list succeed together when each of them does. -/
theorem mapM_eq_ok {read : α → Except ε β} {items : List α} {values : List β} :
    items.mapM read = .ok values ↔
      List.Forall₂ (fun item value => read item = .ok value) items values := by
  induction items generalizing values with
  | nil =>
      rw [List.mapM_nil, List.forall₂_nil_left_iff]
      exact ⟨fun same => (Except.ok.inj same).symm, fun same => congrArg Except.ok same.symm⟩
  | cons item rest ih =>
      rw [List.mapM_cons, bind_eq_ok, List.forall₂_cons_left_iff]
      constructor
      · rintro ⟨value, here, later⟩
        obtain ⟨others, read, same⟩ := bind_eq_ok.1 later
        exact ⟨value, others, here, ih.1 read, (Except.ok.inj same).symm⟩
      · rintro ⟨value, others, here, read, rfl⟩
        exact ⟨value, here, bind_eq_ok.2 ⟨others, ih.2 read, rfl⟩⟩

/-- What stands in the second of two paired lists has a partner in the first. -/
theorem exists_of_forall₂ {suits : α → β → Prop} {keys : List α} {values : List β} {value : β}
    (paired : List.Forall₂ suits keys values) (member : value ∈ values) :
    ∃ key ∈ keys, suits key value := by
  induction paired with
  | nil => cases member
  | cons here _ ih =>
      rcases List.mem_cons.1 member with rfl | later
      · exact ⟨_, List.mem_cons_self, here⟩
      · obtain ⟨key, known, suits⟩ := ih later
        exact ⟨key, List.mem_cons_of_mem _ known, suits⟩

/-- Each item of a list can be given a partner of its own. -/
theorem exists_forall₂ {suits : α → β → Prop} {keys : List α} :
    (∃ values, List.Forall₂ suits keys values) ↔ ∀ key ∈ keys, ∃ value, suits key value := by
  constructor
  · rintro ⟨values, paired⟩ key member
    obtain ⟨value, -, suited⟩ := exists_of_forall₂ paired.flip member
    exact ⟨value, suited⟩
  · intro each
    induction keys with
    | nil => exact ⟨[], .nil⟩
    | cons key rest ih =>
        obtain ⟨value, here⟩ := each key List.mem_cons_self
        obtain ⟨values, later⟩ := ih fun other member => each other (List.mem_cons_of_mem _ member)
        exact ⟨value :: values, .cons here later⟩

end BuildConstants
