import BuildConstants.Proofs.Cache.Contents
import BuildConstants.Proofs.Group.Scope
import Mathlib.Data.Finset.Card

/-!
# What the next pass reuses

A pass that completes has the newest number, so it leaves exactly what it has read. The pass after
it misses once for each key that the earlier one did not ask for: the reads of a pass are counted by
`Cache.misses_replay` with the keys as a finite set, and its keys are told apart by table, by
declaration and, since no group is there twice, by group.
-/

namespace BuildConstants

/-- The keys that a pass looks up when nothing stops it. -/
def CacheKey.ofPass (raw : Option String) (declarations : List Declaration) : List CacheKey :=
  .properties (raw.getD "") ::
    (declarations.map (.verdict ·.identity) ++
      (Group.ofDeclarations declarations).map (.unitText <| ·.unitKey (.resolve raw)))

/-- How much of the input of a pass is new after an earlier one: the raw text, the declarations of
another identity, and the groups that are not there with the same members and values. -/
def changedInputs (earlierRaw : Option String) (earlier : List Declaration) (raw : Option String)
    (declarations : List Declaration) : Nat :=
  (if raw.getD "" = earlierRaw.getD "" then 0 else 1) +
    ((declarations.map Declaration.identity).toFinset \
      (earlier.map Declaration.identity).toFinset).card +
    (Group.ofDeclarations declarations).countP fun g =>
      ¬ (g ∈ Group.ofDeclarations earlier ∧
        g.values (.resolve earlierRaw) = g.values (.resolve raw))

theorem CacheRequest.map_key_ofPass {signal : Signal} {raw : Option String}
    {declarations : List Declaration}
    (undisturbed : signal.stops 0 (CacheRequest.checked raw declarations).length = false) :
    (CacheRequest.ofPass raw declarations signal).map CacheRequest.key =
      CacheKey.ofPass raw declarations := by
  rw [CacheRequest.ofPass, Signal.reached_of_not_stops undisturbed, CacheRequest.checked]
  simp [CacheKey.ofPass, CacheRequest.key, Function.comp_def]

namespace Cache

variable {events : List CacheEvent} {cache : Cache} {opened : List Nat} {key : CacheKey}
  {pass : Nat} {request : CacheRequest} {raw : Option String} {declarations : List Declaration}
  {signal : Signal}

/-- The keys among the given ones that are not kept. -/
def missing (cache : Cache) (keys : List CacheKey) : Finset CacheKey :=
  keys.toFinset.filter (¬ cache.Holds ·)

/-! ### Counting the reads of a pass -/

theorem missing_cons (rest : List CacheKey) :
    cache.missing (key :: rest) =
      if cache.Holds key then cache.missing rest else insert key (cache.missing rest) := by
  rw [missing, List.toFinset_cons, Finset.filter_insert]
  by_cases kept : cache.Holds key
  · rw [if_neg (not_not_intro kept), if_pos kept, missing]
  · rw [if_pos kept, if_neg kept, missing]

/-- After a read, its key is no longer missing, and all others are that were. -/
theorem missing_read (keys : List CacheKey) :
    ((CacheEvent.read pass request).apply cache).missing keys =
      (cache.missing keys).erase request.key := by
  ext key
  simp only [missing, Finset.mem_filter, Finset.mem_erase, holds_read, not_or]
  tauto

/-- Several reads miss once for each key that is not kept, however often it is asked for. -/
theorem misses_replay (requests : List CacheRequest) :
    (cache.replay (requests.map (.read pass))).misses =
      cache.misses + (cache.missing (requests.map CacheRequest.key)).card := by
  induction requests generalizing cache with
  | nil => rfl
  | cons request rest ih =>
      have step := (counts_read cache pass request).2
      rw [List.map_cons, replay_cons, ih, step, missing_read, List.map_cons, missing_cons]
      by_cases kept : cache.Holds request.key
      · have notMissing : request.key ∉ cache.missing (rest.map CacheRequest.key) := by
          simp [missing, kept]
        rw [if_pos kept, if_pos kept, Finset.erase_eq_of_notMem notMissing, Nat.add_zero]
      · rw [if_neg kept, if_neg kept, ← Finset.erase_insert_eq_erase, Nat.add_assoc, Nat.add_comm 1,
          Finset.card_erase_add_one (Finset.mem_insert_self _ _)]

/-- Every read moves one count. -/
theorem hits_add_misses_replay (requests : List CacheRequest) :
    (cache.replay (requests.map (.read pass))).hits +
        (cache.replay (requests.map (.read pass))).misses =
      cache.hits + cache.misses + requests.length := by
  induction requests generalizing cache with
  | nil => rfl
  | cons request rest ih =>
      have counted := counts_read cache pass request
      rw [List.map_cons, replay_cons, ih, List.length_cons]
      split at counted <;> omega

/-! ### The keys of a pass -/

theorem card_missing_append {first second : List CacheKey} (apart : first.Disjoint second) :
    (cache.missing (first ++ second)).card =
      (cache.missing first).card + (cache.missing second).card := by
  have disjoint : Disjoint (cache.missing first) (cache.missing second) :=
    (List.disjoint_toFinset_iff_disjoint.2 apart).mono (Finset.filter_subset _ _)
      (Finset.filter_subset _ _)
  rw [← Finset.card_union_of_disjoint disjoint, missing, List.toFinset_append, Finset.filter_union]
  rfl

theorem card_missing_singleton :
    (cache.missing [key]).card = if cache.Holds key then 0 else 1 := by
  by_cases kept : cache.Holds key <;> simp [missing, Finset.filter_singleton, kept]

theorem card_missing_map {α : Type} [DecidableEq α] {toKey : α → CacheKey}
    (injective : toKey.Injective) (values : List α) :
    (cache.missing (values.map toKey)).card =
      (values.toFinset.filter fun value => ¬ cache.Holds (toKey value)).card := by
  have keys : (values.map toKey).toFinset = values.toFinset.image toKey := by
    ext key
    simp
  rw [missing, keys, Finset.filter_image, Finset.card_image_of_injective _ injective]

/-- The missing keys of a pass, table by table. -/
theorem card_missing_ofPass :
    (cache.missing (CacheKey.ofPass raw declarations)).card =
      (if cache.Holds (.properties (raw.getD "")) then 0 else 1) +
        ((declarations.map Declaration.identity).toFinset.filter fun identity =>
          ¬ cache.Holds (.verdict identity)).card +
        (Group.ofDeclarations declarations).countP fun g =>
          ¬ cache.Holds (.unitText (g.unitKey (.resolve raw))) := by
  have verdicts : declarations.map (fun d => CacheKey.verdict d.identity) =
      (declarations.map Declaration.identity).map CacheKey.verdict := by simp
  have groups : Function.Injective fun g : Group => CacheKey.unitText (g.unitKey (.resolve raw)) :=
    fun first second same => congrArg UnitKey.group (CacheKey.unitText.inj same)
  rw [CacheKey.ofPass, ← List.singleton_append, card_missing_append (by simp),
    card_missing_append (by simp [List.Disjoint]), card_missing_singleton, verdicts,
    card_missing_map (fun _ _ => CacheKey.verdict.inj), card_missing_map groups, ← Nat.add_assoc]
  congr 1
  have distinct : (Group.ofDeclarations declarations).Nodup := Group.nodup_ofModels _
  rw [List.countP_eq_length_filter, ← List.toFinset_card_of_nodup (distinct.filter _),
    List.toFinset_filter]
  simp only [decide_eq_true_eq]

/-- The counts after a pass that nothing stops. -/
theorem counts_ofPass
    (undisturbed : signal.stops 0 (CacheRequest.checked raw declarations).length = false) :
    let next := cache.replay (CacheEvent.ofPass pass raw declarations signal)
    let keys := CacheKey.ofPass raw declarations
    next.misses = cache.misses + (cache.missing keys).card ∧
      next.hits + next.misses = cache.hits + cache.misses + keys.length := by
  intro next keys
  let begun := CacheEvent.begin.apply cache
  let read := begun.replay ((CacheRequest.ofPass raw declarations signal).map (.read pass))
  have parts : next = (CacheEvent.finish pass).apply read := by
    simp only [next, CacheEvent.ofPass, undisturbed, List.cons_append, replay_cons, replay_append]
    rfl
  have asked : (CacheRequest.ofPass raw declarations signal).map CacheRequest.key = keys :=
    CacheRequest.map_key_ofPass undisturbed
  have finished : next.hits = read.hits ∧ next.misses = read.misses := by
    rw [parts]
    exact counts_other (by simp)
  rw [finished.1, finished.2, ← asked, List.length_map]
  exact ⟨misses_replay _, hits_add_misses_replay _⟩

/-! ### What a completed pass leaves -/

/-- A pass with the newest number leaves the keys that it has read and no others. -/
theorem History.holds_after_pass (history : History events cache opened)
    (undisturbed : signal.stops 0 (CacheRequest.checked raw declarations).length = false)
    (key : CacheKey) :
    (empty.replay (events ++ CacheEvent.ofPass (cache.passes + 1) raw declarations signal)).Holds
        key ↔ key ∈ CacheKey.ofPass raw declarations := by
  rw [← CacheRequest.map_key_ofPass undisturbed, holds_iff_readSurvives, CacheEvent.ofPass,
    undisturbed, if_neg Bool.false_ne_true, ← List.append_assoc]
  constructor
  · rintro ⟨pass, survives⟩
    obtain ⟨⟨before, request, after, parts, rfl, -⟩, -, newest⟩ :=
      (readSurvives_snoc.1 survives).resolve_left (by simp)
    have read : CacheEvent.read pass request ∈ before ++ .read pass request :: after := by simp
    rw [← parts] at read
    rcases List.mem_append.1 read with earlier | own
    -- A read from before the pass has an older number, so the finish undoes it.
    · have older := history.numbered.read pass request earlier
      have younger := newest _ rfl
      omega
    · simp only [List.mem_cons, reduceCtorEq, false_or, List.mem_map, CacheEvent.read.injEq] at own
      obtain ⟨_, member, _, rfl⟩ := own
      exact List.mem_map_of_mem member
  · intro member
    obtain ⟨request, asked, same⟩ := List.mem_map.1 member
    obtain ⟨first, second, parts⟩ := List.append_of_mem asked
    refine ⟨cache.passes + 1, events ++ .begin :: first.map (.read (cache.passes + 1)), request,
      second.map (.read (cache.passes + 1)) ++ [.finish (cache.passes + 1)], ?_, same, by simp,
      by simp⟩
    simp [parts]

/-- A cache keeps the inputs of one pass: an entry for its raw text, one for each of its distinct
declarations and one for each of its groups. -/
structure KeepsInputsOf (cache : Cache) (raw : Option String) (declarations : List Declaration) :
    Prop where
  properties : cache.properties.keys = [raw.getD ""]
  verdicts : cache.verdicts.keys.Perm (declarations.map Declaration.identity).dedup
  unitTexts : cache.unitTexts.keys.Perm
    ((Group.ofDeclarations declarations).map (·.unitKey (.resolve raw)))

theorem keepsInputsOf_iff :
    cache.KeepsInputsOf raw declarations ↔
      ∀ key, cache.Holds key ↔ key ∈ CacheKey.ofPass raw declarations := by
  constructor
  · rintro ⟨properties, verdicts, unitTexts⟩ key
    cases key with
    | properties text => simp [Holds, CacheKey.ofPass, properties]
    | verdict identity => simp [Holds, CacheKey.ofPass, verdicts.mem_iff]
    | unitText key => simp [Holds, CacheKey.ofPass, unitTexts.mem_iff]
  · intro holds
    have groups : ((Group.ofDeclarations declarations).map (·.unitKey (.resolve raw))).Nodup :=
      (Group.nodup_ofModels _).map fun _ _ => congrArg UnitKey.group
    refine ⟨List.perm_singleton.1 ?_, ?_, ?_⟩
    · refine (List.perm_ext_iff_of_nodup cache.properties.nodup_keys (by simp)).2 fun text => ?_
      simpa [CacheKey.ofPass, Holds] using holds (.properties text)
    · refine (List.perm_ext_iff_of_nodup cache.verdicts.nodup_keys (List.nodup_dedup _)).2
        fun identity => ?_
      simpa [CacheKey.ofPass, Holds] using holds (.verdict identity)
    · refine (List.perm_ext_iff_of_nodup cache.unitTexts.nodup_keys groups).2 fun key => ?_
      simpa [CacheKey.ofPass, Holds] using holds (.unitText key)

theorem KeepsInputsOf.sizes (keeps : cache.KeepsInputsOf raw declarations) :
    cache.sizes = (1, (declarations.map Declaration.identity).toFinset.card,
      (Group.ofDeclarations declarations).length) := by
  rw [Cache.sizes, ← CacheTable.length_keys, ← CacheTable.length_keys, ← CacheTable.length_keys,
    keeps.properties, keeps.verdicts.length_eq, keeps.unitTexts.length_eq, List.length_map,
    List.card_toFinset]
  rfl

/-- Of the keys of a pass, a cache that keeps the inputs of an earlier one lacks those of what has
changed. -/
theorem KeepsInputsOf.card_missing {earlierRaw : Option String} {earlier : List Declaration}
    (keeps : cache.KeepsInputsOf earlierRaw earlier) :
    (cache.missing (CacheKey.ofPass raw declarations)).card =
      changedInputs earlierRaw earlier raw declarations := by
  have holds := keepsInputsOf_iff.1 keeps
  rw [card_missing_ofPass, changedInputs]
  congr 1
  · congr 1
    · simp [holds, CacheKey.ofPass]
    · congr 1
      ext identity
      simp [holds, CacheKey.ofPass]
  · refine List.countP_congr fun g _ => ?_
    simp [holds, CacheKey.ofPass, Group.unitKey]

/-- A pass that completes leaves exactly its inputs, and the next pass to complete misses once for
each of its own inputs that has changed since. -/
theorem History.incremental (history : History events cache opened) {options : GenerateOptions}
    {output : GenerationOutput} {kept : Cache}
    (completed : (generateCached options raw declarations signal).run cache = (.ok output, kept)) :
    kept.KeepsInputsOf raw declarations ∧
      ∀ laterOptions laterRaw later laterSignal laterOutput next,
        (generateCached laterOptions laterRaw later laterSignal).run kept =
            (.ok laterOutput, next) →
          next.misses = kept.misses + changedInputs raw declarations laterRaw later ∧
          next.hits + changedInputs raw declarations laterRaw later =
            kept.hits + (1 + later.length + (Group.ofDeclarations later).length) := by
  obtain ⟨undisturbed, -, rfl⟩ := history.sound.of_completed completed
  have keeps : (cache.replay (CacheEvent.ofPass (cache.passes + 1) raw declarations
      signal)).KeepsInputsOf raw declarations := by
    refine keepsInputsOf_iff.2 fun key => ?_
    have holds := history.holds_after_pass undisturbed key
    rwa [replay_append, ← history.eq_replay] at holds
  refine ⟨keeps, fun _ laterRaw later _ _ next laterCompleted => ?_⟩
  have sound := history.sound.replay
    (CacheEvent.ofPass (cache.passes + 1) raw declarations signal)
  obtain ⟨laterUndisturbed, -, rfl⟩ := sound.of_completed laterCompleted
  obtain ⟨misses, total⟩ := counts_ofPass laterUndisturbed
  rw [keeps.card_missing] at misses
  refine ⟨misses, ?_⟩
  rw [misses] at total
  have size : (CacheKey.ofPass laterRaw later).length =
      1 + later.length + (Group.ofDeclarations later).length := by
    simp only [CacheKey.ofPass, List.length_cons, List.length_append, List.length_map]
    omega
  omega

/-- After a pass that was dropped, one pass and then another over the same declarations with a new
value for one of them: the raw text and the text of the group are computed again. -/
theorem incremental_after_dropped_pass :
    let variants : Container := ⟨"Develop", "Variants", .reference⟩
    let declarations : List Declaration :=
      [.unsupportedIn "a/b", .unsupportedIn "a//b", .property variants "Flavor" "string"]
    ∃ cache kept next output laterOutput,
      History [.begin, .read 1 (.verdict (.unsupportedIn "c")), .drop 1] cache [] ∧
      (generateCached {} none declarations .never).run cache = (.ok output, kept) ∧
      kept.KeepsInputsOf none declarations ∧
      (generateCached {} (some "Flavor=sweet") declarations .never).run kept =
        (.ok laterOutput, next) ∧
      next.misses = kept.misses + 2 := by
  intro variants declarations
  have isOpen : 1 ∈ [1] := List.mem_singleton_self 1
  have history := (History.start.begin.read isOpen (.verdict (.unsupportedIn "c"))).drop isOpen
  obtain ⟨output, kept, completed⟩ := history.sound.completes {} none declarations
  obtain ⟨keeps, counts⟩ := history.incremental completed
  have later := history.generate {} none declarations .never
  rw [completed] at later
  obtain ⟨laterOutput, next, laterCompleted⟩ :=
    later.sound.completes {} (some "Flavor=sweet") declarations
  have changed : changedInputs none declarations (some "Flavor=sweet") declarations = 2 := by
    decide +kernel
  have misses := (counts _ _ _ _ _ _ laterCompleted).1
  rw [changed] at misses
  exact ⟨_, kept, next, output, laterOutput, history, completed, keeps, laterCompleted, misses⟩

end Cache

end BuildConstants
