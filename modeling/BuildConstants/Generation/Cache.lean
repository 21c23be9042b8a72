import BuildConstants.SourceUnit.Text

/-!
# Cached results

A cache keeps the results of the stages of generation between passes. Every pass has a number, and
every entry knows the latest pass that read it. A pass that finishes sweeps the entries that no pass
of its number or a later one has read.

Passes and reads are counted in natural numbers. They stand for counters of 64 bits, which they
agree with as long as fewer than `2 ^ 64` passes have begun and fewer than `2 ^ 64` reads have been
made.
-/

namespace BuildConstants

/-- A kept result. -/
structure CacheEntry (K V : Type) where
  key : K
  value : V
  /-- The latest pass that read the entry, a number below `2 ^ 64`. -/
  lastPass : Nat

/-- The kept results of one stage, at most one for each key. -/
structure CacheTable (K V : Type) where
  entries : List (CacheEntry K V)
  distinct : (entries.map (·.key)).Nodup

namespace CacheTable

variable {K V : Type}

/-- The keys that have an entry. -/
def keys (table : CacheTable K V) : List K :=
  table.entries.map (·.key)

def empty : CacheTable K V :=
  ⟨[], .nil⟩

def size (table : CacheTable K V) : Nat :=
  table.entries.length

/-- Keeps the entries that the given pass or a later one has read. -/
def sweep (table : CacheTable K V) (pass : Nat) : CacheTable K V :=
  ⟨table.entries.filter (pass ≤ ·.lastPass), table.distinct.sublist (List.filter_sublist.map _)⟩

variable [DecidableEq K]

def find? (table : CacheTable K V) (key : K) : Option (CacheEntry K V) :=
  table.entries.find? (·.key = key)

theorem notMem_keys {table : CacheTable K V} {key : K} (absent : table.find? key = none) :
    key ∉ table.keys := by
  simpa [find?, keys] using absent

/-- Notes in an entry that a pass has read it, if it is the one of the key. -/
def touchEntry (key : K) (pass : Nat) (entry : CacheEntry K V) : CacheEntry K V :=
  if entry.key = key then { entry with lastPass := max entry.lastPass pass } else entry

@[simp]
theorem touchEntry_key (key : K) (pass : Nat) (entry : CacheEntry K V) :
    (touchEntry key pass entry).key = entry.key := by
  unfold touchEntry
  split <;> rfl

/-- Notes that a pass has read the entry of a key. -/
def touch (table : CacheTable K V) (key : K) (pass : Nat) : CacheTable K V :=
  ⟨table.entries.map (touchEntry key pass), by
    simpa [Function.comp_def] using table.distinct⟩

/-- Adds the entry of a key that the table does not have yet. -/
def add (table : CacheTable K V) (key : K) (value : V) (pass : Nat) (fresh : key ∉ table.keys) :
    CacheTable K V :=
  ⟨table.entries ++ [{ key, value, lastPass := pass }], by
    rw [List.map_append, List.nodup_append]
    refine ⟨table.distinct, by simp, fun other member last isLast same => fresh ?_⟩
    simp only [List.map_cons, List.map_nil, List.mem_singleton] at isLast
    exact isLast ▸ same ▸ member⟩

end CacheTable

/-- What the text of a unit is kept by: the group, and of the properties only the values that its
members read. -/
structure UnitKey where
  group : Group
  values : List (Option String)
deriving DecidableEq

/-- The kept results of all stages, with the counts of the reads that found one and of those that
did not. The counts do not wrap around, so fewer than `2 ^ 64` events are presumed. -/
structure Cache where
  properties : CacheTable String PropertyMap
  verdicts : CacheTable Declaration.Identity Verdict
  unitTexts : CacheTable UnitKey String
  /-- The number of passes begun. -/
  passes : Nat
  hits : Nat
  misses : Nat

namespace Cache

def empty : Cache :=
  { properties := .empty, verdicts := .empty, unitTexts := .empty, passes := 0, hits := 0,
    misses := 0 }

/-- The sizes of the three tables. -/
def sizes (cache : Cache) : Nat × Nat × Nat :=
  (cache.properties.size, cache.verdicts.size, cache.unitTexts.size)

/-- Begins a pass. Passes are numbered from one in the order in which they begin. -/
def begin : StateM Cache Nat :=
  modifyGet fun cache => (cache.passes + 1, { cache with passes := cache.passes + 1 })

/-- Reads a key from one of the tables: the kept result if there is one, and else the computed one,
which is kept. -/
def read {K V : Type} [DecidableEq K] (table : Cache → CacheTable K V)
    (setTable : Cache → CacheTable K V → Cache) (pass : Nat) (key : K) (compute : Unit → V) :
    StateM Cache V :=
  modifyGet fun cache =>
    match found : (table cache).find? key with
    | some entry =>
      (entry.value, { setTable cache ((table cache).touch key pass) with hits := cache.hits + 1 })
    | none =>
      let value := compute ()
      (value,
        { setTable cache ((table cache).add key value pass (CacheTable.notMem_keys found)) with
          misses := cache.misses + 1 })

/-- The properties of a raw text. An absent text is kept as the empty one. -/
def readProperties (pass : Nat) (raw : Option String) : StateM Cache PropertyMap :=
  let text := raw.getD ""
  read (·.properties) (fun cache table => { cache with properties := table }) pass text
    fun _ => PropertyMap.resolve (some text)

/-- The verdict on a declaration. -/
def readVerdict (pass : Nat) (d : Declaration) : StateM Cache Verdict :=
  read (·.verdicts) (fun cache table => { cache with verdicts := table }) pass d.identity
    fun _ => d.verdict

/-- The text of the unit of a group. -/
def readUnitText (pass : Nat) (g : Group) (properties : PropertyMap) : StateM Cache String :=
  read (·.unitTexts) (fun cache table => { cache with unitTexts := table }) pass
    ⟨g, g.values properties⟩ fun _ => g.unitText properties

/-- Finishes a pass: sweeps the entries that neither it nor a later pass has read. A pass that is
dropped instead sweeps nothing. -/
def finish (pass : Nat) : StateM Cache Unit :=
  modify fun cache =>
    { cache with
      properties := cache.properties.sweep pass
      verdicts := cache.verdicts.sweep pass
      unitTexts := cache.unitTexts.sweep pass }

/-- Empties the tables. The counts stay. -/
def clear : StateM Cache Unit :=
  modify fun cache =>
    { cache with properties := .empty, verdicts := .empty, unitTexts := .empty }

end Cache

end BuildConstants
