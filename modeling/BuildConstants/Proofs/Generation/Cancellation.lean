import BuildConstants.Proofs.Cache.Transparency
import BuildConstants.Proofs.Generation.Token

/-!
# Cancellation is all or nothing

A pass checks its token before each declaration and before each group. It fails exactly when the
token, or one that shares its signal, has been cancelled by the time of the last check; otherwise it
is the pass that nothing stops. `Cache.History.all_or_nothing` says so for passes with a cache and
without one. A cancelled pass has read some results through the cache and has swept nothing, so what
it adds beside the entries that were there are recomputations, and no later pass sees a difference.
-/

namespace BuildConstants

/-- The number of checks of a pass: one before each declaration and one before each group. -/
def checkCount (declarations : List Declaration) : Nat :=
  declarations.length + (Group.ofDeclarations declarations).length

/-- The token at `index`, or one that shares its signal, is cancelled by the time of the last of
`count` checks. -/
def TokenTimeline.RaisedBy (timeline : TokenTimeline) (index count : Nat) : Prop :=
  0 < count ∧ Tokens.RaisedIn (timeline.before (count - 1)) index

/-- The checks of a pass stop it when its token is cancelled by the time of the last one. -/
theorem Signal.stops_watching_iff {timeline : TokenTimeline} {index count : Nat} :
    (watching timeline index).stops 0 count ↔ timeline.RaisedBy index count := by
  rw [stops, isRaisedBy_watching, Nat.zero_add, Bool.and_eq_true, decide_eq_true_iff,
    ← Nat.pos_iff_ne_zero, TokenTimeline.finds, Tokens.isCancelled_after_iff]
  rfl

section

variable {raw : Option String} {declarations : List Declaration} {signal : Signal}

/-- A pass fails when one of its checks stops it. -/
theorem generate_of_stops (options : GenerateOptions) (raw : Option String)
    (stopped : signal.stops 0 (checkCount declarations)) :
    generate options raw declarations signal = .error .cancelled := by
  rw [checkCount] at stopped
  rw [generate_eq, if_pos stopped]

/-- A pass that no check stops is the one that nothing stops. -/
theorem generate_of_not_stops (options : GenerateOptions) (raw : Option String)
    (undisturbed : signal.stops 0 (checkCount declarations) = false) :
    generate options raw declarations signal = generate options raw declarations .never := by
  rw [checkCount] at undisturbed
  rw [generate_eq, generate_eq, undisturbed, Signal.never_stops]

/-- The requests of a pass that no check stops do not depend on its signal. -/
theorem CacheRequest.ofPass_of_not_stops
    (undisturbed : signal.stops 0 (checked raw declarations).length = false) :
    ofPass raw declarations signal = .properties raw :: checked raw declarations := by
  rw [ofPass, Signal.reached_of_not_stops undisturbed]

/-- The events of a pass that no check stops do not depend on its signal. -/
theorem CacheEvent.ofPass_of_not_stops {pass : Nat}
    (undisturbed : signal.stops 0 (CacheRequest.checked raw declarations).length = false) :
    ofPass pass raw declarations signal = ofPass pass raw declarations .never := by
  rw [ofPass, ofPass, CacheRequest.ofPass_of_not_stops undisturbed,
    CacheRequest.ofPass_of_not_stops Signal.never_stops, undisturbed, Signal.never_stops]

end

namespace CacheTable

variable {K V : Type} [DecidableEq K] {first second third : CacheTable K V}

/-- Every entry of the first table is still there with its value. -/
def Preserves (first second : CacheTable K V) : Prop :=
  ∀ key entry, first.find? key = some entry →
    ∃ later, second.find? key = some later ∧ later.value = entry.value

theorem Preserves.refl (table : CacheTable K V) : table.Preserves table :=
  fun _ entry found => ⟨entry, found, rfl⟩

theorem Preserves.trans (one : first.Preserves second) (other : second.Preserves third) :
    first.Preserves third := by
  intro key entry found
  obtain ⟨between, foundBetween, sameBetween⟩ := one key entry found
  obtain ⟨later, foundLater, sameLater⟩ := other key between foundBetween
  exact ⟨later, foundLater, sameLater.trans sameBetween⟩

/-- A read keeps the entries, that of its own key included. -/
theorem preserves_afterRead (table : CacheTable K V) (read : K) (value : V) (pass : Nat) :
    table.Preserves (table.afterRead read value pass) := by
  intro key entry found
  rw [find?_afterRead]
  by_cases own : key = read
  · subst own
    refine ⟨_, if_pos rfl, ?_⟩
    rw [readEntry_value, valueOf, found]
    rfl
  · exact ⟨entry, by rw [if_neg own, found], rfl⟩

end CacheTable

namespace Cache

/-- Every kept result of the first cache is still kept. -/
structure Preserves (first second : Cache) : Prop where
  properties : first.properties.Preserves second.properties
  verdicts : first.verdicts.Preserves second.verdicts
  unitTexts : first.unitTexts.Preserves second.unitTexts

variable {cache first second third : Cache} {pass : Nat}

theorem Preserves.refl (cache : Cache) : cache.Preserves cache :=
  ⟨.refl _, .refl _, .refl _⟩

theorem Preserves.trans (one : first.Preserves second) (other : second.Preserves third) :
    first.Preserves third :=
  ⟨one.properties.trans other.properties, one.verdicts.trans other.verdicts,
    one.unitTexts.trans other.unitTexts⟩

theorem preserves_read (cache : Cache) (pass : Nat) (request : CacheRequest) :
    cache.Preserves ((CacheEvent.read pass request).apply cache) := by
  cases request with
  | properties raw =>
      rw [CacheEvent.apply, run_readProperties]
      exact ⟨CacheTable.preserves_afterRead _ _ _ _, .refl _, .refl _⟩
  | verdict d =>
      rw [CacheEvent.apply, run_readVerdict]
      exact ⟨.refl _, CacheTable.preserves_afterRead _ _ _ _, .refl _⟩
  | unitText g properties =>
      rw [CacheEvent.apply, run_readUnitText]
      exact ⟨.refl _, .refl _, CacheTable.preserves_afterRead _ _ _ _⟩

/-- However many reads there are, they remove nothing. -/
theorem preserves_reads (cache : Cache) (pass : Nat) (requests : List CacheRequest) :
    cache.Preserves (cache.replay (requests.map (.read pass))) := by
  induction requests generalizing cache with
  | nil => exact .refl cache
  | cons request rest ih => exact (preserves_read cache pass request).trans (ih _)

/-- A pass that its signal stops begins, reads and is dropped. -/
theorem preserves_stopped {signal : Signal} {raw : Option String} {declarations : List Declaration}
    (stopped : signal.stops 0 (checkCount declarations)) :
    cache.Preserves (cache.replay (CacheEvent.ofPass pass raw declarations signal)) := by
  rw [checkCount, ← CacheRequest.length_checked raw] at stopped
  have dropped : cache.replay (CacheEvent.ofPass pass raw declarations signal) =
      (CacheEvent.begin.apply cache).replay
        ((CacheRequest.ofPass raw declarations signal).map (.read pass)) := by
    rw [CacheEvent.ofPass, if_pos stopped, List.cons_append, replay_cons, replay_append]
    rfl
  have begun : cache.Preserves (CacheEvent.begin.apply cache) := ⟨.refl _, .refl _, .refl _⟩
  rw [dropped]
  exact begun.trans (preserves_reads _ pass _)

/-- What a pass over a sound cache gives, the places of diagnostics left out, is what it gives
without a cache. -/
theorem Sound.placeless_generateCached (sound : cache.Sound) (options : GenerateOptions)
    (raw : Option String) (declarations : List Declaration) (signal : Signal) :
    ((generateCached options raw declarations signal).run cache).1.map
        GenerationOutput.placeless =
      (BuildConstants.generate options raw declarations signal).map
        GenerationOutput.placeless := by
  rw [run_generateCached sound, generate_eq, CacheRequest.length_checked]
  split
  · rfl
  · exact congrArg Except.ok (sound.placeless_ofVerdicts options _ declarations)

/-- A pass over a sound cache fails when one of its checks stops it. -/
theorem Sound.generateCached_of_stops (sound : cache.Sound) (options : GenerateOptions)
    (raw : Option String) {declarations : List Declaration} {signal : Signal}
    (stopped : signal.stops 0 (checkCount declarations)) :
    (generateCached options raw declarations signal).run cache =
      (.error .cancelled,
        cache.replay (CacheEvent.ofPass (cache.passes + 1) raw declarations signal)) := by
  rw [checkCount, ← CacheRequest.length_checked raw] at stopped
  rw [run_generateCached sound, if_pos stopped]

/-- A pass over a sound cache that no check stops is the one that nothing stops. -/
theorem Sound.generateCached_of_not_stops (sound : cache.Sound) (options : GenerateOptions)
    (raw : Option String) {declarations : List Declaration} {signal : Signal}
    (undisturbed : signal.stops 0 (checkCount declarations) = false) :
    (generateCached options raw declarations signal).run cache =
      (generateCached options raw declarations .never).run cache := by
  rw [checkCount, ← CacheRequest.length_checked raw] at undisturbed
  rw [run_generateCached sound, run_generateCached sound, undisturbed, Signal.never_stops,
    CacheEvent.ofPass_of_not_stops undisturbed]

/-- A cache comes to no harm: each entry is still there, each is a recomputation, and later passes
give what they would have given from the earlier cache, whatever becomes of the two before. -/
structure Unharmed (cache next : Cache) : Prop where
  preserved : cache.Preserves next
  sound : next.Sound
  later : ∀ more others options raw declarations signal,
    ((generateCached options raw declarations signal).run (next.replay more)).1.map
        GenerationOutput.placeless =
      ((generateCached options raw declarations signal).run (cache.replay others)).1.map
        GenerationOutput.placeless

/-- A pass through the token at `index`, with a cache and without one, fails or is the pass that
nothing stops. -/
structure AllOrNothing (options : GenerateOptions) (raw : Option String)
    (declarations : List Declaration) (timeline : TokenTimeline) (index : Nat) (cache : Cache) :
    Prop where
  cancelled :
    BuildConstants.generate options raw declarations (.watching timeline index) =
        .error .cancelled ↔
      timeline.RaisedBy index (checkCount declarations)
  completed : ¬ timeline.RaisedBy index (checkCount declarations) →
    ∃ output,
      BuildConstants.generate options raw declarations (.watching timeline index) = .ok output ∧
      BuildConstants.generate options raw declarations .never = .ok output
  cachedCancelled :
    ((generateCached options raw declarations (.watching timeline index)).run cache).1 =
        .error .cancelled ↔
      timeline.RaisedBy index (checkCount declarations)
  cachedCompleted : ¬ timeline.RaisedBy index (checkCount declarations) →
    ∃ output next,
      (generateCached options raw declarations (.watching timeline index)).run cache =
        (.ok output, next) ∧
      (generateCached options raw declarations .never).run cache = (.ok output, next)
  unharmed : timeline.RaisedBy index (checkCount declarations) →
    cache.Unharmed
      ((generateCached options raw declarations (.watching timeline index)).run cache).2
  /-- Without declarations there is no check. -/
  unchecked : declarations = [] → ¬ timeline.RaisedBy index (checkCount declarations)

/-- Whatever a cache has gone through and whenever the token of a pass is cancelled, the pass is all
or nothing. -/
theorem History.all_or_nothing {events : List CacheEvent} {opened : List Nat}
    (history : History events cache opened) (options : GenerateOptions) (raw : Option String)
    (declarations : List Declaration) (timeline : TokenTimeline) (index : Nat) :
    AllOrNothing options raw declarations timeline index cache := by
  have sound := history.sound
  by_cases raised : timeline.RaisedBy index (checkCount declarations)
  · have stopped := Signal.stops_watching_iff.2 raised
    have fails := sound.generateCached_of_stops options raw stopped
    refine ⟨iff_of_true (generate_of_stops options raw stopped) raised,
      fun quiet => absurd raised quiet, iff_of_true (congrArg Prod.fst fails) raised,
      fun quiet => absurd raised quiet, fun _ => ?_, ?_⟩
    · have nextSound := sound.replay
        (CacheEvent.ofPass (cache.passes + 1) raw declarations (.watching timeline index))
      rw [fails]
      refine ⟨preserves_stopped stopped, nextSound, fun more others _ _ _ _ => ?_⟩
      rw [(nextSound.replay more).placeless_generateCached,
        (sound.replay others).placeless_generateCached]
    · rintro rfl
      exact absurd raised.1 (Nat.lt_irrefl 0)
  · have undisturbed : (Signal.watching timeline index).stops 0 (checkCount declarations) = false :=
      Bool.eq_false_iff.2 fun stopped => raised (Signal.stops_watching_iff.1 stopped)
    obtain ⟨output, ran⟩ : ∃ output,
        BuildConstants.generate options raw declarations .never = .ok output := by
      rw [generate_eq, Signal.never_stops]
      exact ⟨_, rfl⟩
    obtain ⟨cachedOutput, next, cachedRan⟩ := sound.completes options raw declarations
    have same := generate_of_not_stops options raw undisturbed
    have cachedSame := sound.generateCached_of_not_stops options raw undisturbed
    rw [ran] at same
    rw [cachedRan] at cachedSame
    refine ⟨iff_of_false ?_ raised, fun _ => ⟨output, same, ran⟩, iff_of_false ?_ raised,
      fun _ => ⟨cachedOutput, next, cachedSame, cachedRan⟩, fun isRaised => absurd isRaised raised,
      fun _ => raised⟩
    · rw [same]
      nofun
    · rw [cachedSame]
      nofun

/-- After a whole pass, a pass over one more declaration fails before its group, because a copy of
its token is cancelled. The cache keeps what the first pass left, and the new verdict beside it. -/
theorem cancelled_by_copy :
    let variants : Container := ⟨"Develop", "Variants", .reference⟩
    let declarations : List Declaration := [.property variants "Flavor" "string"]
    let more : List Declaration := declarations ++ [.property variants "Level" "int"]
    let timeline : TokenTimeline := [[.copy 0], [], [.cancel 1]]
    ∃ cache, History (CacheEvent.ofPass 1 none declarations .never) cache [] ∧
      cache.sizes = (1, 1, 1) ∧ timeline.RaisedBy 0 (checkCount more) ∧
      let ran := (generateCached {} none more (.watching timeline 0)).run cache
      ran.1 = .error .cancelled ∧ ran.2.sizes = (1, 2, 1) ∧ cache.Unharmed ran.2 := by
  intro variants declarations more timeline
  have history := History.start.generate {} none declarations .never
  have raised : timeline.RaisedBy 0 (checkCount more) :=
    Signal.stops_watching_iff.1 (by decide +kernel)
  have outcome := history.all_or_nothing {} none more timeline 0
  refine ⟨_, history, ?_, raised, outcome.cachedCancelled.2 raised, ?_, outcome.unharmed raised⟩
  · decide +kernel
  · decide +kernel

end Cache

end BuildConstants
