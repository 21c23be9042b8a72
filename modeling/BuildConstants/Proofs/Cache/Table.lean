import BuildConstants.Generation.Cache
import Mathlib.Data.List.Nodup

/-!
# Entries of a cache table

A table is known by the entry that it finds for each key. This module says what reading, sweeping
and emptying do to that entry; `CacheTable.find?_afterRead` covers both outcomes of a read. The
order of the entries is left open.
-/

namespace BuildConstants.CacheTable

variable {K V : Type} [DecidableEq K] {table : CacheTable K V} {key other : K} {value : V}
  {pass : Nat} {entry : CacheEntry K V}

/-- Distinct keys make a membership in the entries a finding. -/
theorem find?_eq_some_iff :
    table.find? key = some entry ↔ entry ∈ table.entries ∧ entry.key = key := by
  constructor
  · intro found
    exact ⟨List.mem_of_find?_eq_some found, by simpa using List.find?_some found⟩
  · rintro ⟨member, rfl⟩
    cases found : table.find? entry.key with
    | none => exact absurd (List.mem_map_of_mem member) (notMem_keys found)
    | some kept =>
        have keptMember := List.mem_of_find?_eq_some found
        have sameKey : kept.key = entry.key := by simpa using List.find?_some found
        rw [List.inj_on_of_nodup_map table.distinct keptMember member sameKey]

theorem key_of_find? (found : table.find? key = some entry) : entry.key = key :=
  (find?_eq_some_iff.1 found).2

omit [DecidableEq K] in
theorem nodup_keys (table : CacheTable K V) : table.keys.Nodup :=
  table.distinct

omit [DecidableEq K] in
theorem length_keys (table : CacheTable K V) : table.keys.length = table.size :=
  List.length_map _

/-- A key is in the table exactly when it is found. -/
theorem mem_keys_iff : key ∈ table.keys ↔ (table.find? key).isSome := by
  simp [keys, find?, List.find?_isSome]

/-- Touching notes the pass in the entry of the key and leaves the others alone. -/
theorem find?_touch :
    (table.touch key pass).find? other = (table.find? other).map (touchEntry key pass) := by
  simp only [find?, touch, List.find?_map, Function.comp_def, touchEntry_key]

/-- Adding an entry hides none of those there. -/
theorem find?_add (fresh : key ∉ table.keys) :
    (table.add key value pass fresh).find? other =
      if other = key then some { key, value, lastPass := pass } else table.find? other := by
  simp only [find?, add, List.find?_append]
  by_cases same : other = key
  · subst same
    have absent : table.find? other = none := by
      simpa [mem_keys_iff] using fresh
    rw [find?] at absent
    simp [absent]
  · simp [same, Ne.symm same]

/-- A sweep keeps an entry exactly when the pass or a later one has read it. -/
theorem find?_sweep :
    (table.sweep pass).find? key = (table.find? key).filter (pass ≤ ·.lastPass) := by
  apply Option.ext
  intro entry
  rw [Option.filter_eq_some_iff, find?_eq_some_iff, find?_eq_some_iff]
  simp only [sweep, List.mem_filter]
  tauto

/-- The table after a pass has read a key; the value is kept if the key has none yet. -/
def afterRead (table : CacheTable K V) (key : K) (value : V) (pass : Nat) : CacheTable K V :=
  match found : table.find? key with
  | some _ => table.touch key pass
  | none => table.add key value pass (notMem_keys found)

theorem afterRead_of_found (found : table.find? key = some entry) :
    table.afterRead key value pass = table.touch key pass := by
  unfold afterRead
  split
  next => rfl
  next absent => simp [found] at absent

theorem afterRead_of_absent (absent : table.find? key = none) :
    table.afterRead key value pass = table.add key value pass (notMem_keys absent) := by
  unfold afterRead
  split
  next found => simp [absent] at found
  next => rfl

/-- The entry of a key after a pass has read the key: the one there with the pass noted, or a new
one. -/
def readEntry (table : CacheTable K V) (key : K) (value : V) (pass : Nat) : CacheEntry K V :=
  match table.find? key with
  | some entry => { entry with lastPass := max entry.lastPass pass }
  | none => { key, value, lastPass := pass }

/-- A read changes the entry of its key alone. -/
theorem find?_afterRead :
    (table.afterRead key value pass).find? other =
      if other = key then some (table.readEntry key value pass) else table.find? other := by
  cases found : table.find? key with
  | none =>
      rw [afterRead_of_absent found, find?_add]
      simp [readEntry, found]
  | some entry =>
      rw [afterRead_of_found found, find?_touch]
      by_cases same : other = key
      · subst same
        simp [found, readEntry, touchEntry, key_of_find? found]
      · cases kept : table.find? other with
        | none => simp [same]
        | some keptEntry =>
            have notRead : keptEntry.key ≠ key := key_of_find? kept ▸ same
            simp [touchEntry, notRead, same]

/-- What holds of every key with its kept value. -/
def Keeps (table : CacheTable K V) (holds : K → V → Prop) : Prop :=
  ∀ key entry, table.find? key = some entry → holds key entry.value

variable {holds : K → V → Prop}

theorem Keeps.empty : (CacheTable.empty : CacheTable K V).Keeps holds :=
  nofun

theorem Keeps.sweep (kept : table.Keeps holds) : (table.sweep pass).Keeps holds := by
  intro key entry found
  rw [find?_sweep, Option.filter_eq_some_iff] at found
  exact kept key entry found.1

/-- The value that a read hands out: the kept one, or the one computed for it. -/
def valueOf (table : CacheTable K V) (key : K) (value : V) : V :=
  ((table.find? key).map (·.value)).getD value

theorem readEntry_value : (table.readEntry key value pass).value = table.valueOf key value := by
  unfold readEntry valueOf
  split <;> simp [*]

theorem valueOf_afterRead (computed : V) :
    (table.afterRead key value pass).valueOf other computed =
      if other = key then table.valueOf key value else table.valueOf other computed := by
  rw [valueOf, find?_afterRead]
  by_cases same : other = key
  · simp [same, readEntry_value]
  · simp [same, valueOf]

theorem Keeps.valueOf (kept : table.Keeps holds) (key : K) (computed : holds key value) :
    holds key (table.valueOf key value) := by
  cases found : table.find? key with
  | none => simpa [CacheTable.valueOf, found] using computed
  | some entry => simpa [CacheTable.valueOf, found] using kept key entry found

theorem Keeps.afterRead (kept : table.Keeps holds) (computed : holds key value) :
    (table.afterRead key value pass).Keeps holds := by
  intro other entry found
  rw [find?_afterRead] at found
  split at found
  next same =>
    cases found
    rw [readEntry_value, same]
    exact kept.valueOf key computed
  next => exact kept other entry found

end BuildConstants.CacheTable
