import BuildConstants.Proofs.Cache.Sound
import BuildConstants.Proofs.Generation.Output

/-!
# Passes over a cache

A whole pass over a cache is a sequence of events: it begins, reads the properties, one verdict for
each declaration and one text for each group, and then finishes. A pass that its signal stops reads
only what comes before the check that stops it, and is dropped. `Cache.run_generateCached` states
this for the state and the output of a pass over a sound cache.
-/

namespace BuildConstants

/-- What a pass asks for behind a check: a verdict for each declaration, and a text for each group
of those accepted. -/
def CacheRequest.checked (raw : Option String) (declarations : List Declaration) :
    List CacheRequest :=
  declarations.map .verdict ++
    (Group.ofDeclarations declarations).map (.unitText · (PropertyMap.resolve raw))

theorem CacheRequest.length_checked (raw : Option String) (declarations : List Declaration) :
    (checked raw declarations).length =
      declarations.length + (Group.ofDeclarations declarations).length := by
  rw [checked, List.length_append, List.length_map, List.length_map]

/-- All that a pass asks for until it ends or is stopped. -/
def CacheRequest.ofPass (raw : Option String) (declarations : List Declaration) (signal : Signal) :
    List CacheRequest :=
  .properties raw :: signal.reached 0 (checked raw declarations)

/-- The events of the pass with the given number. -/
def CacheEvent.ofPass (pass : Nat) (raw : Option String) (declarations : List Declaration)
    (signal : Signal) : List CacheEvent :=
  .begin :: (CacheRequest.ofPass raw declarations signal).map (.read pass) ++
    [if signal.stops 0 (CacheRequest.checked raw declarations).length then .drop pass
      else .finish pass]

namespace Cache

variable {cache : Cache} {pass : Nat} {signal : Signal}

/-- The verdict that reading all of some declarations hands out for one of them: the kept one, and
where none is kept the one on the first of them with its identity. -/
def verdictAmong (cache : Cache) (declarations : List Declaration) (d : Declaration) : Verdict :=
  cache.verdicts.valueOf d.identity
    ((declarations.find? (·.identity = d.identity)).getD d).verdict

/-- Reading a declaration before others leaves it to speak for those of its identity. -/
theorem verdictAmong_cons (d e : Declaration) (rest : List Declaration) :
    ((CacheEvent.read pass (.verdict d)).apply cache).verdictAmong rest e =
      cache.verdictAmong (d :: rest) e := by
  rw [CacheEvent.apply, run_readVerdict]
  simp only [verdictAmong, counted, CacheTable.valueOf_afterRead, List.find?_cons]
  by_cases same : e.identity = d.identity
  · simp [same]
  · simp [same, Ne.symm same]

/-- Several reads one after the other, the first one first. -/
theorem run_mapM_cons {α β : Type} (read : α → StateM Cache β) (piece : α) (rest : List α) :
    ((piece :: rest).mapM read).run cache =
      let first := (read piece).run cache
      let others := (rest.mapM read).run first.2
      (first.1 :: others.1, others.2) := by
  simp only [List.mapM_cons, StateT.run_bind, StateT.run_pure]
  rfl

theorem run_mapM_readVerdict (declarations : List Declaration) :
    (declarations.mapM (readVerdict pass)).run cache =
      (declarations.map (cache.verdictAmong declarations),
        cache.replay (declarations.map fun d => .read pass (.verdict d))) := by
  induction declarations generalizing cache with
  | nil => rfl
  | cons d rest ih =>
      have head : ((readVerdict pass d).run cache).1 = cache.verdictAmong (d :: rest) d := by
        simp [run_readVerdict, verdictAmong]
      have next : ((readVerdict pass d).run cache).2 =
          (CacheEvent.read pass (.verdict d)).apply cache := rfl
      simp only [run_mapM_cons, head, next, ih, List.map_cons, replay_cons]
      congr 2
      exact List.map_congr_left fun e _ => verdictAmong_cons d e rest

/-- A sound cache hands out the texts that are rendered for the groups. -/
theorem run_mapM_readUnitText (sound : cache.Sound) (properties : PropertyMap)
    (groups : List Group) :
    (groups.mapM (readUnitText pass · properties)).run cache =
      (groups.map (·.unitText properties),
        cache.replay (groups.map fun g => .read pass (.unitText g properties))) := by
  induction groups generalizing cache with
  | nil => rfl
  | cons g rest ih =>
      have head : ((readUnitText pass g properties).run cache).1 = g.unitText properties :=
        sound.readUnitText g properties
      have next : ((readUnitText pass g properties).run cache).2 =
          (CacheEvent.read pass (.unitText g properties)).apply cache := rfl
      simp only [run_mapM_cons, head, next, ih (sound.apply _), List.map_cons, replay_cons]

theorem Sound.verdictAmong (sound : cache.Sound) (declarations : List Declaration)
    (d : Declaration) :
    ∃ e : Declaration, e.identity = d.identity ∧
      cache.verdictAmong declarations d = e.verdict := by
  have computed : ((declarations.find? (·.identity = d.identity)).getD d).identity =
      d.identity := by
    cases found : declarations.find? (·.identity = d.identity) with
    | none => rfl
    | some e => simpa using List.find?_some found
  obtain ⟨e, same, judged⟩ := sound.verdicts.valueOf d.identity ⟨_, computed, rfl⟩
  exact ⟨e, same, judged.symm⟩

/-- A sound cache forms the groups that the declarations themselves form. -/
theorem Sound.ofVerdicts_verdictAmong (sound : cache.Sound) (declarations : List Declaration) :
    Group.ofVerdicts (declarations.map (cache.verdictAmong declarations)) =
      Group.ofDeclarations declarations := by
  have models : ∀ d, (cache.verdictAmong declarations d).model? = d.verdict.model? := by
    intro d
    obtain ⟨e, same, judged⟩ := sound.verdictAmong declarations d
    rw [judged, Declaration.model?_eq same]
  simp only [Group.ofDeclarations, Group.ofVerdicts, List.filterMap_map, Function.comp_def, models]

theorem run_bind {α β : Type} (action : StateM Cache α) (next : α → StateM Cache β) :
    (action >>= next).run cache = (next (action.run cache).1).run (action.run cache).2 := rfl

/-- Reading properties leaves the verdicts as they are. -/
theorem verdictAmong_readProperties (raw : Option String) (declarations : List Declaration) :
    ((CacheEvent.read pass (.properties raw)).apply cache).verdictAmong declarations =
      cache.verdictAmong declarations := by
  rw [CacheEvent.apply, run_readProperties]
  rfl

/-- A pass over a sound cache. -/
theorem run_cached (sound : cache.Sound) (options : GenerateOptions) (raw : Option String)
    (declarations : List Declaration) :
    ((Stages.cached pass).run options raw declarations signal).run.run cache =
      (if signal.stops 0 (CacheRequest.checked raw declarations).length then .error .cancelled
        else
          .ok (.ofVerdicts options (.resolve raw)
            (declarations.map (cache.verdictAmong declarations))),
        cache.replay ((CacheRequest.ofPass raw declarations signal).map (.read pass))) := by
  have properties : ((readProperties pass raw).run cache).1 = .resolve raw :=
    sound.readProperties raw
  have begun : ((readProperties pass raw).run cache).2 =
      (CacheEvent.read pass (.properties raw)).apply cache := rfl
  simp only [Stages.run_run, Stages.cached, run_bind, properties, begun, run_mapM_readVerdict]
  rw [CacheRequest.ofPass, CacheRequest.checked, Signal.reached_append, List.length_append,
    Signal.stops_add]
  simp only [List.length_map, Signal.reached_map]
  cases stopped : signal.stops 0 declarations.length with
  | true =>
      simp only [Bool.true_or, ↓reduceIte, List.map_cons, List.map_map, replay_cons]
      rfl
  | false =>
      have undisturbed := Signal.reached_of_not_stops stopped
      simp only [undisturbed, verdictAmong_readProperties, sound.ofVerdicts_verdictAmong,
        Bool.false_eq_true, ↓reduceIte, Bool.false_or, Nat.zero_add, StateT.run_map,
        run_mapM_readUnitText ((sound.apply _).replay _), List.map_cons, List.map_append,
        List.map_map, replay_cons, replay_append, GenerationOutput.ofVerdicts]
      cases later : signal.stops declarations.length
        (Group.ofDeclarations declarations).length with
      | true => rfl
      | false =>
          rw [Signal.reached_of_not_stops later]
          rfl

/-- A pass that reads every stage through a sound cache, with the cache that it leaves behind. -/
theorem run_generateCached (sound : cache.Sound) (options : GenerateOptions) (raw : Option String)
    (declarations : List Declaration) :
    (generateCached options raw declarations signal).run cache =
      (if signal.stops 0 (CacheRequest.checked raw declarations).length then .error .cancelled
        else
          .ok (.ofVerdicts options (.resolve raw)
            (declarations.map (cache.verdictAmong declarations))),
        cache.replay (CacheEvent.ofPass (cache.passes + 1) raw declarations signal)) := by
  have begun : (begin.run cache).2 = CacheEvent.begin.apply cache := rfl
  have number : (begin.run cache).1 = cache.passes + 1 := rfl
  have verdicts : (CacheEvent.begin.apply cache).verdictAmong declarations =
      cache.verdictAmong declarations := rfl
  simp only [generateCached, run_bind, number, begun, run_cached (sound.apply _), verdicts,
    CacheEvent.ofPass]
  cases signal.stops 0 (CacheRequest.checked raw declarations).length with
  | true =>
      simp only [↓reduceIte, StateT.run_pure, replay_append, replay_cons, replay_nil,
        List.cons_append]
      rfl
  | false =>
      simp only [Bool.false_eq_true, ↓reduceIte, replay_append, replay_cons, replay_nil,
        List.cons_append]
      rfl

/-- What a pass that completes over a sound cache was spared, returned and left behind. -/
theorem Sound.of_completed (sound : cache.Sound) {options : GenerateOptions} {raw : Option String}
    {declarations : List Declaration} {output : GenerationOutput} {next : Cache}
    (completed : (generateCached options raw declarations signal).run cache = (.ok output, next)) :
    signal.stops 0 (CacheRequest.checked raw declarations).length = false ∧
      output = .ofVerdicts options (.resolve raw)
        (declarations.map (cache.verdictAmong declarations)) ∧
      next = cache.replay (CacheEvent.ofPass (cache.passes + 1) raw declarations signal) := by
  rw [run_generateCached sound, Prod.mk.injEq] at completed
  obtain ⟨result, rfl⟩ := completed
  split at result
  next => cases result
  next undisturbed =>
    cases result
    exact ⟨by simpa using undisturbed, rfl, rfl⟩

/-- A pass over a sound cache completes when no signal is raised. -/
theorem Sound.completes (sound : cache.Sound) (options : GenerateOptions) (raw : Option String)
    (declarations : List Declaration) :
    ∃ output next,
      (generateCached options raw declarations .never).run cache = (.ok output, next) := by
  rw [run_generateCached sound, Signal.never_stops]
  exact ⟨_, _, rfl⟩

end Cache

end BuildConstants
