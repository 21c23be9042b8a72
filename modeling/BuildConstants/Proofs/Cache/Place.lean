import BuildConstants.Proofs.Cache.History
import Mathlib.Data.List.Induction

/-!
# The places of kept diagnostics

A kept verdict was computed from one declaration and is handed out for every declaration of its
identity, so a diagnostic names the file as the first of them spelled it. `Cache.Origin` finds that
declaration in the history, and `Cache.SpeaksFor` does so for the declarations that one pass reads;
the diagnostics are those computed afresh exactly when each rejected declaration is spoken for by
one at the same place.
-/

namespace BuildConstants.Cache

/-- The declaration that a kept verdict was computed from: the read of it found nothing, and its
identity has been kept ever since. -/
def Origin (events : List CacheEvent) (e : Declaration) : Prop :=
  ∃ before pass after, events = before ++ .read pass (.verdict e) :: after ∧
    ¬ (empty.replay before).Holds (.verdict e.identity) ∧
    ∀ later, later <+: after →
      (empty.replay (before ++ .read pass (.verdict e) :: later)).Holds (.verdict e.identity)

/-- Among some declarations that are read after the events, the one whose verdict is handed out for
`d`: the origin of the kept verdict, or the first of them with the identity if none is kept. -/
def SpeaksFor (events : List CacheEvent) (declarations : List Declaration) (d e : Declaration) :
    Prop :=
  e.identity = d.identity ∧
    (Origin events e ∨
      ¬ (empty.replay events).Holds (.verdict d.identity) ∧
        declarations.find? (·.identity = d.identity) = some e)

variable {events : List CacheEvent} {event : CacheEvent} {cache : Cache} {d e : Declaration}
  {identity : Declaration.Identity} {entry : CacheEntry Declaration.Identity Verdict}
  {declarations : List Declaration}

/-- A kept verdict was kept before the last event, or that event read it and found nothing. -/
theorem verdict_of_apply (found : (event.apply cache).verdicts.find? identity = some entry) :
    (∃ prior, cache.verdicts.find? identity = some prior ∧ prior.value = entry.value) ∨
      ∃ pass d, event = .read pass (.verdict d) ∧ d.identity = identity ∧
        cache.verdicts.find? identity = none ∧ entry.value = d.verdict := by
  cases event with
  | begin | drop _ => exact .inl ⟨entry, found, rfl⟩
  | clear => cases found
  | finish pass =>
      have kept : (cache.verdicts.sweep pass).find? identity = some entry := found
      rw [CacheTable.find?_sweep, Option.filter_eq_some_iff] at kept
      exact .inl ⟨entry, kept.1, rfl⟩
  | read pass request =>
      cases request with
      | properties raw =>
          rw [CacheEvent.apply, run_readProperties] at found
          exact .inl ⟨entry, found, rfl⟩
      | unitText g properties =>
          rw [CacheEvent.apply, run_readUnitText] at found
          exact .inl ⟨entry, found, rfl⟩
      | verdict d =>
          rw [CacheEvent.apply, run_readVerdict] at found
          simp only [counted, CacheTable.find?_afterRead] at found
          by_cases same : identity = d.identity
          · subst same
            rw [if_pos rfl, Option.some_inj] at found
            cases prior : cache.verdicts.find? d.identity with
            | some kept =>
                refine .inl ⟨kept, rfl, ?_⟩
                rw [← found, CacheTable.readEntry_value]
                simp [CacheTable.valueOf, prior]
            | none =>
                refine .inr ⟨pass, d, rfl, rfl, rfl, ?_⟩
                rw [← found, CacheTable.readEntry_value]
                simp [CacheTable.valueOf, prior]
          · rw [if_neg same] at found
            exact .inl ⟨entry, found, rfl⟩

theorem holds_verdict_iff :
    cache.Holds (.verdict identity) ↔ ∃ entry, cache.verdicts.find? identity = some entry := by
  rw [Holds, CacheTable.mem_keys_iff, Option.isSome_iff_exists]

/-- A declaration remains the origin while its identity is kept. -/
theorem Origin.snoc (origin : Origin events e)
    (kept : (empty.replay (events ++ [event])).Holds (.verdict e.identity)) :
    Origin (events ++ [event]) e := by
  obtain ⟨before, pass, after, rfl, missed, held⟩ := origin
  refine ⟨before, pass, after ++ [event], by simp, missed, fun later isPrefix => ?_⟩
  rcases List.prefix_concat_iff.1 isPrefix with rfl | earlier
  · simpa using kept
  · exact held later earlier

/-- Every kept verdict has an origin. -/
theorem exists_origin (found : (empty.replay events).verdicts.find? identity = some entry) :
    ∃ e, Origin events e ∧ e.identity = identity ∧ entry.value = e.verdict := by
  induction events using List.reverseRecOn generalizing entry with
  | nil => cases found
  | append_singleton events event ih =>
      have kept := holds_verdict_iff.2 ⟨entry, found⟩
      rw [replay_append] at found
      rcases verdict_of_apply found with ⟨prior, before, same⟩ | ⟨pass, d, rfl, rfl, absent, value⟩
      · obtain ⟨e, origin, rfl, value⟩ := ih before
        exact ⟨e, origin.snoc kept, rfl, same.symm.trans value⟩
      · refine ⟨d, ⟨events, pass, [], rfl, ?_, ?_⟩, rfl, value⟩
        · simp [holds_verdict_iff, absent]
        · intro later isPrefix
          rw [List.prefix_nil.1 isPrefix]
          exact kept

/-- The kept verdict is the one on its origin. -/
theorem Origin.value (origin : Origin events e) :
    ∃ entry, (empty.replay events).verdicts.find? e.identity = some entry ∧
      entry.value = e.verdict := by
  obtain ⟨before, pass, after, rfl, missed, held⟩ := origin
  induction after using List.reverseRecOn with
  | nil =>
      obtain ⟨entry, found⟩ := holds_verdict_iff.1 (held [] (List.prefix_refl []))
      refine ⟨entry, found, ?_⟩
      rw [replay_append, replay_cons, replay_nil] at found
      rcases verdict_of_apply found with ⟨prior, kept, _⟩ | ⟨_, d, read, _, _, value⟩
      · exact absurd (holds_verdict_iff.2 ⟨prior, kept⟩) missed
      · cases read
        exact value
  | append_singleton after event ih =>
      obtain ⟨prior, kept, value⟩ := ih fun later isPrefix =>
        held later (isPrefix.trans (List.prefix_append after [event]))
      obtain ⟨entry, found⟩ := holds_verdict_iff.1 (held _ (List.prefix_refl _))
      refine ⟨entry, found, ?_⟩
      rw [← List.cons_append, ← List.append_assoc, replay_append] at found
      rcases verdict_of_apply found with ⟨same, again, equal⟩ | ⟨_, _, _, _, absent, _⟩
      · rw [again] at kept
        cases kept
        exact equal.symm.trans value
      · rw [absent] at kept
        cases kept

theorem verdictAmong_of_speaksFor (speaks : SpeaksFor events declarations d e) :
    (empty.replay events).verdictAmong declarations d = e.verdict := by
  obtain ⟨same, origin | ⟨absent, first⟩⟩ := speaks
  · obtain ⟨entry, found, value⟩ := origin.value
    simp [verdictAmong, CacheTable.valueOf, ← same, found, value]
  · have missing : (empty.replay events).verdicts.find? d.identity = none := by
      simpa [holds_verdict_iff, Option.eq_none_iff_forall_ne_some] using absent
    simp [verdictAmong, CacheTable.valueOf, missing, first]

/-- Some declaration speaks for each one that is read. -/
theorem exists_speaksFor (events : List CacheEvent) (member : d ∈ declarations) :
    ∃ e, SpeaksFor events declarations d e := by
  cases found : (empty.replay events).verdicts.find? d.identity with
  | some entry =>
      obtain ⟨e, origin, same, _⟩ := exists_origin found
      exact ⟨e, same, .inl origin⟩
  | none =>
      have absent : ¬ (empty.replay events).Holds (.verdict d.identity) := by
        simp [holds_verdict_iff, found]
      cases first : declarations.find? (·.identity = d.identity) with
      | none => simpa using List.find?_eq_none.1 first d member
      | some e => exact ⟨e, by simpa using List.find?_some first, .inr ⟨absent, first⟩⟩

/-- If `d` is rejected, whatever speaks for it stands at its place. -/
def KeepsPlace (events : List CacheEvent) (declarations : List Declaration) (d : Declaration) :
    Prop :=
  d.verdict.diagnostic? ≠ none → ∀ e, SpeaksFor events declarations d e → e.location = d.location

theorem verdictAmong_eq_iff (member : d ∈ declarations) :
    (empty.replay events).verdictAmong declarations d = d.verdict ↔
      KeepsPlace events declarations d := by
  constructor
  · intro handedOut rejected e speaks
    rw [verdictAmong_of_speaksFor speaks, eq_comm] at handedOut
    exact (((Declaration.verdict_eq_iff speaks.1.symm).1 handedOut).resolve_left rejected).symm
  · intro keeps
    obtain ⟨e, speaks⟩ := exists_speaksFor events member
    rw [verdictAmong_of_speaksFor speaks, eq_comm]
    refine (Declaration.verdict_eq_iff speaks.1.symm).2 ?_
    by_cases accepted : d.verdict.diagnostic? = none
    · exact .inl accepted
    · exact .inr (keeps accepted e speaks).symm

/-- Verdicts that accept the same declarations give the same diagnostics only if they are equal. -/
theorem diagnostics_eq_iff {first second : Declaration → Verdict}
    (alike : ∀ d ∈ declarations, (first d).model? = (second d).model?) :
    (declarations.map first).filterMap Verdict.diagnostic? =
        (declarations.map second).filterMap Verdict.diagnostic? ↔
      ∀ d ∈ declarations, first d = second d := by
  induction declarations with
  | nil => simp
  | cons d rest ih =>
      have others := ih fun e member => alike e (List.mem_cons_of_mem d member)
      have head := alike d List.mem_cons_self
      rw [List.forall_mem_cons, ← others]
      cases one : first d <;> cases other : second d <;>
        simp_all [Verdict.model?, Verdict.diagnostic?, List.filterMap_cons]

/-- What is read through a cache carries the place of what it was read for exactly when a
declaration at that place speaks for it; the diagnostics of a whole pass are those computed afresh
exactly when this holds of each declaration of the pass. -/
theorem History.places_kept_iff {opened : List Nat} (history : History events cache opened) :
    (∀ pass d, ((readVerdict pass d).run cache).1 = d.verdict ↔ KeepsPlace events [d] d) ∧
      ∀ options raw declarations signal output,
        ((generateCached options raw declarations signal).run cache).1 = .ok output →
          ∃ fresh, BuildConstants.generate options raw declarations signal = .ok fresh ∧
            (output.diagnostics = fresh.diagnostics ↔
              ∀ d ∈ declarations, KeepsPlace events declarations d) := by
  have replayed := history.eq_replay
  subst replayed
  constructor
  · intro pass d
    rw [← verdictAmong_eq_iff (List.mem_singleton_self d), run_readVerdict]
    simp [verdictAmong]
  · intro options raw declarations signal output completed
    obtain ⟨undisturbed, rfl, -⟩ := history.sound.of_completed (Prod.ext completed rfl)
    rw [generate_eq, ← CacheRequest.length_checked, undisturbed, if_neg Bool.false_ne_true]
    refine ⟨_, rfl, (diagnostics_eq_iff fun d _ => ?_).trans ?_⟩
    · obtain ⟨e, same, judged⟩ := history.sound.verdictAmong declarations d
      rw [judged, Declaration.model?_eq same]
    · exact forall₂_congr fun d member => verdictAmong_eq_iff member

/-- The verdict kept by an earlier pass does not keep the place as a later pass spells it. -/
theorem place_lost_to_earlier_pass :
    let events := CacheEvent.ofPass 1 none [.unsupportedIn "a/b"] .never
    let declarations : List Declaration := [.unsupportedIn "a//b"]
    ∃ cache, History events cache [] ∧
      ¬ KeepsPlace events declarations (.unsupportedIn "a//b") ∧
      ∃ output fresh,
        ((generateCached {} none declarations .never).run cache).1 = .ok output ∧
        BuildConstants.generate {} none declarations .never = .ok fresh ∧
        output.diagnostics ≠ fresh.diagnostics := by
  intro events declarations
  have history := History.start.generate {} none [.unsupportedIn "a/b"] .never
  have lost : ¬ KeepsPlace events declarations (.unsupportedIn "a//b") := fun keeps =>
    absurd ((history.places_kept_iff.1 1 _).2 keeps) (by decide +kernel)
  obtain ⟨output, _, ran⟩ := history.sound.completes {} none declarations
  have completed := congrArg Prod.fst ran
  obtain ⟨fresh, afresh, alike⟩ := history.places_kept_iff.2 _ _ _ _ _ completed
  exact ⟨_, history, lost, output, fresh, completed, afresh,
    fun same => lost (alike.1 same _ (List.mem_singleton_self _))⟩

/-- Of two spellings of one place in one pass, both diagnostics show the first. -/
theorem place_lost_within_pass :
    History [] .empty [] ∧
      let declarations : List Declaration := [.unsupportedIn "a/b", .unsupportedIn "a//b"]
      let texts := fun output : GenerationOutput => output.diagnostics.map Diagnostic.text
      ((generateCached {} none declarations .never).run .empty).1.map texts =
          .ok ["a/b:12: warning BTBP0002: Unsupported property type. type=[double]",
            "a/b:12: warning BTBP0002: Unsupported property type. type=[double]"] ∧
        (BuildConstants.generate {} none declarations .never).map texts =
          .ok ["a/b:12: warning BTBP0002: Unsupported property type. type=[double]",
            "a//b:12: warning BTBP0002: Unsupported property type. type=[double]"] :=
  ⟨.start, by decide +kernel, by decide +kernel⟩

end BuildConstants.Cache
