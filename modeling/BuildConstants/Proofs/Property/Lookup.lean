import BuildConstants.Proofs.Property.RoundTrip

/-!
# Looking up keys

A property map is determined by the values of its keys: `PropertyMap.ext_get?`. Of the properties
that a map is made of, the last one with a key gives the key its value, and of two maps that are
laid over each other, the upper one where it has the key.
-/

namespace BuildConstants

/-- What is found from the end has no other one behind it. -/
theorem find?_reverse_eq_some_iff {α : Type} {p : α → Bool} {xs : List α} {x : α} :
    xs.reverse.find? p = some x ↔
      ∃ front back, xs = front ++ x :: back ∧ p x ∧ ∀ y ∈ back, ¬ p y := by
  rw [List.find?_eq_some_iff_append]
  constructor
  · rintro ⟨fits, back, front, whole, later⟩
    refine ⟨front.reverse, back.reverse, ?_, fits, by simpa using later⟩
    rw [← List.reverse_reverse xs, whole]
    simp
  · rintro ⟨front, back, rfl, fits, later⟩
    exact ⟨fits, back.reverse, front.reverse, by simp, by simpa using later⟩

/-- A property is found under its key; what is found under other keys stays. -/
theorem Property.find?_insertInto (p : Property) (ps : List Property) (key : String) :
    ((p.insertInto ps).find? fun q => q.key = key) =
      if p.key = key then some p else ps.find? fun q => q.key = key := by
  induction ps with
  | nil => by_cases same : p.key = key <;> simp [insertInto, same]
  | cons q rest ih =>
      rw [insertInto]
      by_cases isLess : p.key < q.key
      · rw [if_pos isLess]
        by_cases same : p.key = key <;> simp [same]
      · rw [if_neg isLess]
        by_cases replaced : p.key = q.key
        · by_cases same : p.key = key <;> simp [← replaced, same]
        · rw [if_neg replaced, List.find?_cons, List.find?_cons, ih]
          by_cases same : q.key = key
          · have apart : p.key ≠ key := fun equal => replaced (equal.trans same.symm)
            simp [same, apart]
          · simp [same]

namespace PropertyMap

variable {m other : PropertyMap} {p : Property} {ps : List Property} {key value : String}

@[simp] theorem get?_empty (key : String) : empty.get? key = none := rfl

theorem get?_insert (m : PropertyMap) (p : Property) (key : String) :
    (m.insert p).get? key = if p.key = key then some p.value else m.get? key := by
  rw [get?, insert, Property.find?_insertInto]
  split <;> rfl

theorem get?_foldl_insert (m : PropertyMap) (ps : List Property) (key : String) :
    (ps.foldl insert m).get? key =
      ((ps.reverse.find? fun p => p.key = key).map (·.value)).or (m.get? key) := by
  induction ps generalizing m with
  | nil => rfl
  | cons p rest ih =>
      rw [List.foldl_cons, ih, get?_insert, List.reverse_cons, List.find?_append]
      cases rest.reverse.find? fun q => q.key = key with
      | some q => rfl
      | none => by_cases same : p.key = key <;> simp [same]

/-- The last property with a key gives the key its value. -/
theorem get?_ofList (ps : List Property) (key : String) :
    (ofList ps).get? key = (ps.reverse.find? fun p => p.key = key).map (·.value) :=
  (get?_foldl_insert empty ps key).trans Option.or_none

theorem get?_eq_some_iff : m.get? key = some value ↔ ⟨key, value⟩ ∈ m.entries := by
  refine ⟨mem_of_get?, fun member => ?_⟩
  obtain ⟨front, back, whole⟩ := List.append_of_mem member
  have sorted := m.increasing
  rw [whole] at sorted
  have before : front.find? (fun p => p.key = key) = none := by
    refine List.find?_eq_none.2 fun p inFront => ?_
    have isLess : p.key < key :=
      (List.pairwise_append.1 sorted).2.2 p inFront ⟨key, value⟩ List.mem_cons_self
    simpa using String.ne_of_lt isLess
  rw [get?, whole, List.find?_append, before]
  simp

/-- Maps that give every key the same value are the same. -/
theorem ext_get? (same : ∀ key, m.get? key = other.get? key) : m = other := by
  have distinct : ∀ m : PropertyMap, m.entries.Nodup := fun m =>
    m.increasing.imp fun isLess equal => String.ne_of_lt isLess (congrArg Property.key equal)
  have members : ∀ p, p ∈ m.entries ↔ p ∈ other.entries := fun ⟨key, value⟩ => by
    rw [← get?_eq_some_iff, same, get?_eq_some_iff]
  have shuffled := (List.perm_ext_iff_of_nodup (distinct m) (distinct other)).2 members
  ext1
  exact shuffled.eq_of_pairwise
    (fun p q _ _ isLess isGreater => absurd isGreater (String.lt_asymm isLess))
    m.increasing other.increasing

/-- The map with another one laid over it: a key that both have has the value of the upper one. -/
def override (m other : PropertyMap) : PropertyMap :=
  other.entries.foldl insert m

@[simp] theorem get?_override (m other : PropertyMap) (key : String) :
    (m.override other).get? key = (other.get? key).or (m.get? key) := by
  rw [override, get?_foldl_insert, ← get?_ofList, ofList_entries]

end PropertyMap

end BuildConstants
