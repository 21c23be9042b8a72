import BuildConstants.Generation.Pass
import BuildConstants.Proofs.Cache.Table

/-!
# Events in the life of a cache

A cache moves by events: passes begin, read, finish and are dropped, and the tables are cleared. The
three tables are seen as one partial map from `CacheKey` to the latest pass that read the key, and
each event is described by what it does to that map and to the counts.
-/

namespace BuildConstants

/-- What a pass asks a cache for. -/
inductive CacheRequest where
  | properties (raw : Option String)
  | verdict (d : Declaration)
  | unitText (g : Group) (properties : PropertyMap)

/-- What a result is kept by, in any of the three tables. -/
inductive CacheKey where
  | properties (text : String)
  | verdict (identity : Declaration.Identity)
  | unitText (key : UnitKey)
deriving DecidableEq

/-- What the text of the unit of a group is kept by. -/
def Group.unitKey (g : Group) (properties : PropertyMap) : UnitKey :=
  ⟨g, g.values properties⟩

/-- The key that a request looks up. -/
def CacheRequest.key : CacheRequest → CacheKey
  | .properties raw => .properties (raw.getD "")
  | .verdict d => .verdict d.identity
  | .unitText g configured => .unitText (g.unitKey configured)

/-- One step in the life of a cache. -/
inductive CacheEvent where
  | begin
  | read (pass : Nat) (request : CacheRequest)
  | finish (pass : Nat)
  | drop (pass : Nat)
  | clear

/-- The cache after an event. -/
def CacheEvent.apply : CacheEvent → Cache → Cache
  | .begin, cache => (Cache.begin.run cache).2
  | .read pass (.properties raw), cache => ((Cache.readProperties pass raw).run cache).2
  | .read pass (.verdict d), cache => ((Cache.readVerdict pass d).run cache).2
  | .read pass (.unitText g properties), cache =>
    ((Cache.readUnitText pass g properties).run cache).2
  | .finish pass, cache => ((Cache.finish pass).run cache).2
  | .drop _, cache => cache
  | .clear, cache => (Cache.clear.run cache).2

namespace Cache

/-- The cache after some events, the first one first. -/
def replay (cache : Cache) (events : List CacheEvent) : Cache :=
  events.foldl (fun cache event => event.apply cache) cache

@[simp] theorem replay_nil (cache : Cache) : cache.replay [] = cache := rfl

@[simp] theorem replay_cons (cache : Cache) (event : CacheEvent) (events : List CacheEvent) :
    cache.replay (event :: events) = (event.apply cache).replay events := rfl

@[simp] theorem replay_append (cache : Cache) (first second : List CacheEvent) :
    cache.replay (first ++ second) = (cache.replay first).replay second :=
  List.foldl_append

/-- A key is kept by its table. -/
def Holds (cache : Cache) : CacheKey → Prop
  | .properties text => text ∈ cache.properties.keys
  | .verdict identity => identity ∈ cache.verdicts.keys
  | .unitText key => key ∈ cache.unitTexts.keys

instance (cache : Cache) : DecidablePred cache.Holds
  | .properties text => inferInstanceAs (Decidable (text ∈ cache.properties.keys))
  | .verdict identity => inferInstanceAs (Decidable (identity ∈ cache.verdicts.keys))
  | .unitText key => inferInstanceAs (Decidable (key ∈ cache.unitTexts.keys))

/-- The latest pass that read a key, while the key is kept. -/
def lastPass? (cache : Cache) : CacheKey → Option Nat
  | .properties text => (cache.properties.find? text).map (·.lastPass)
  | .verdict identity => (cache.verdicts.find? identity).map (·.lastPass)
  | .unitText key => (cache.unitTexts.find? key).map (·.lastPass)

variable {cache : Cache} {key : CacheKey} {pass : Nat} {request : CacheRequest}

theorem holds_iff : cache.Holds key ↔ (cache.lastPass? key).isSome := by
  cases key <;> simp [Holds, lastPass?, CacheTable.mem_keys_iff]

/-! ### Reads -/

/-- A read of any table: the value, the table and the count that it moves. -/
theorem run_read {K V : Type} [DecidableEq K] (table : Cache → CacheTable K V)
    (setTable : Cache → CacheTable K V → Cache) (pass : Nat) (key : K) (compute : Unit → V)
    (cache : Cache) :
    (read table setTable pass key compute).run cache =
      ((table cache).valueOf key (compute ()),
        if key ∈ (table cache).keys then
          { setTable cache ((table cache).afterRead key (compute ()) pass) with
            hits := cache.hits + 1 }
        else
          { setTable cache ((table cache).afterRead key (compute ()) pass) with
            misses := cache.misses + 1 }) := by
  simp only [read, StateT.run, modifyGet, MonadStateOf.modifyGet, StateT.modifyGet, pure]
  split
  next entry found =>
    simp [CacheTable.mem_keys_iff, CacheTable.valueOf, CacheTable.afterRead_of_found found, found]
  next absent =>
    simp [CacheTable.mem_keys_iff, CacheTable.valueOf, CacheTable.afterRead_of_absent absent,
      absent]

/-- The counts after a read that found its key or did not. -/
def counted (cache : Cache) (found : Prop) [Decidable found] : Cache :=
  { cache with
    hits := cache.hits + if found then 1 else 0
    misses := cache.misses + if found then 0 else 1 }

theorem run_readProperties (raw : Option String) :
    (readProperties pass raw).run cache =
      let text := raw.getD ""
      let computed := PropertyMap.resolve (some text)
      (cache.properties.valueOf text computed,
        { cache with properties := cache.properties.afterRead text computed pass }.counted
          (cache.Holds (.properties text))) := by
  simp only [readProperties, run_read, counted, Holds]
  split <;> simp [*]

theorem run_readVerdict (d : Declaration) :
    (readVerdict pass d).run cache =
      (cache.verdicts.valueOf d.identity d.verdict,
        { cache with verdicts := cache.verdicts.afterRead d.identity d.verdict pass }.counted
          (cache.Holds (.verdict d.identity))) := by
  simp only [readVerdict, run_read, counted, Holds]
  split <;> simp [*]

theorem run_readUnitText (g : Group) (properties : PropertyMap) :
    (readUnitText pass g properties).run cache =
      let key := g.unitKey properties
      let computed := g.unitText properties
      (cache.unitTexts.valueOf key computed,
        { cache with unitTexts := cache.unitTexts.afterRead key computed pass }.counted
          (cache.Holds (.unitText key))) := by
  simp only [readUnitText, run_read, counted, Holds, Group.unitKey]
  split <;> simp [*]

theorem lastPass_readEntry {K V : Type} [DecidableEq K] (table : CacheTable K V) (key : K)
    (value : V) :
    (table.readEntry key value pass).lastPass =
      ((table.find? key).map (max ·.lastPass pass)).getD pass := by
  unfold CacheTable.readEntry
  split <;> simp [*]

/-- A read notes its pass with the key it looks up and changes no other key. -/
theorem lastPass?_read :
    ((CacheEvent.read pass request).apply cache).lastPass? key =
      if key = request.key then some (((cache.lastPass? key).map (max · pass)).getD pass)
      else cache.lastPass? key := by
  cases request <;> cases key <;>
    simp only [CacheEvent.apply, run_readProperties, run_readVerdict, run_readUnitText, counted,
      lastPass?, CacheRequest.key, CacheTable.find?_afterRead, reduceCtorEq, ↓reduceIte,
      CacheKey.properties.injEq, CacheKey.verdict.injEq, CacheKey.unitText.injEq]
  all_goals
    split
    next same => subst same; simp [lastPass_readEntry, Function.comp_def]
    next => rfl

/-- A read counts as a hit when the key was kept before it, and else as a miss. -/
theorem counts_read (cache : Cache) (pass : Nat) (request : CacheRequest) :
    ((CacheEvent.read pass request).apply cache).hits =
        cache.hits + (if cache.Holds request.key then 1 else 0) ∧
      ((CacheEvent.read pass request).apply cache).misses =
        cache.misses + (if cache.Holds request.key then 0 else 1) := by
  cases request <;>
    simp only [CacheEvent.apply, run_readProperties, run_readVerdict, run_readUnitText, counted,
      CacheRequest.key]
  all_goals exact ⟨rfl, rfl⟩

theorem holds_read :
    ((CacheEvent.read pass request).apply cache).Holds key ↔
      key = request.key ∨ cache.Holds key := by
  rw [holds_iff, holds_iff, lastPass?_read]
  by_cases same : key = request.key <;> simp [same]

/-! ### Other events -/

/-- Finishing a pass keeps the keys that it or a later one has read. -/
theorem lastPass?_finish :
    ((CacheEvent.finish pass).apply cache).lastPass? key =
      (cache.lastPass? key).filter (pass ≤ ·) := by
  cases key <;>
    simp only [CacheEvent.apply, finish, lastPass?, StateT.run, modify, modifyGet,
      MonadStateOf.modifyGet, StateT.modifyGet, pure, CacheTable.find?_sweep, Option.filter_map,
      Function.comp_def]

@[simp] theorem lastPass?_begin :
    (CacheEvent.begin.apply cache).lastPass? key = cache.lastPass? key := by
  cases key <;> rfl

@[simp] theorem lastPass?_clear : (CacheEvent.clear.apply cache).lastPass? key = none := by
  cases key <;> rfl

/-- Only a read counts. -/
theorem counts_other {event : CacheEvent} (notRead : ∀ pass request, event ≠ .read pass request) :
    (event.apply cache).hits = cache.hits ∧ (event.apply cache).misses = cache.misses := by
  cases event with
  | read pass request => exact absurd rfl (notRead pass request)
  | begin | finish _ | drop _ | clear => exact ⟨rfl, rfl⟩

/-- Only the beginning of a pass moves the number of passes. -/
theorem passes_apply (cache : Cache) (event : CacheEvent) :
    (event.apply cache).passes = cache.passes + if event matches .begin then 1 else 0 := by
  cases event with
  | read pass request =>
      cases request <;>
        simp [CacheEvent.apply, run_readProperties, run_readVerdict, run_readUnitText, counted]
  | begin | finish _ | drop _ | clear => rfl

end Cache

end BuildConstants
