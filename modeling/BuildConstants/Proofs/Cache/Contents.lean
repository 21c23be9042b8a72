import BuildConstants.Proofs.Cache.History
import Mathlib.Data.List.Induction
import Mathlib.Order.Bounds.Basic

/-!
# The contents of a cache

What a cache keeps after a history can be read off the history: a key is kept exactly when some read
of it survives. An entry knows only the latest pass that read it, so the induction carries more than
the statement: that this pass is the greatest of those with a surviving read.
-/

namespace BuildConstants.Cache

/-- The pass has read the key, and since then nothing was cleared and no younger pass finished. -/
def ReadSurvives (events : List CacheEvent) (key : CacheKey) (pass : Nat) : Prop :=
  ∃ before request after, events = before ++ .read pass request :: after ∧ request.key = key ∧
    .clear ∉ after ∧ ∀ younger, .finish younger ∈ after → younger ≤ pass

/-- The passes with a surviving read of a key. -/
def survivors (events : List CacheEvent) (key : CacheKey) : Set Nat :=
  {pass | ReadSurvives events key pass}

variable {events : List CacheEvent} {event : CacheEvent} {key : CacheKey} {pass : Nat}
  {request : CacheRequest}

/-- A read survives one more event if it is that event or the event does not undo it. -/
theorem readSurvives_snoc :
    ReadSurvives (events ++ [event]) key pass ↔
      (∃ request, event = .read pass request ∧ request.key = key) ∨
        ReadSurvives events key pass ∧ event ≠ .clear ∧
          ∀ younger, event = .finish younger → younger ≤ pass := by
  constructor
  · rintro ⟨before, request, after, parts, same, uncleared, unswept⟩
    rcases List.eq_nil_or_concat after with rfl | ⟨earlier, last, rfl⟩
    · obtain ⟨_, isLast⟩ := List.append_inj' parts rfl
      exact .inl ⟨request, List.singleton_inj.1 isLast, same⟩
    · rw [List.concat_eq_append, ← List.cons_append, ← List.append_assoc] at parts
      obtain ⟨rfl, isLast⟩ := List.append_inj' parts rfl
      cases List.singleton_inj.1 isLast
      simp only [List.concat_eq_append, List.mem_append, List.mem_singleton] at uncleared unswept
      exact .inr ⟨⟨before, request, earlier, rfl, same, fun member => uncleared (.inl member),
          fun younger member => unswept younger (.inl member)⟩,
        fun cleared => uncleared (.inr cleared.symm),
        fun younger finished => unswept younger (.inr finished.symm)⟩
  · rintro (⟨request, rfl, same⟩ | ⟨⟨before, request, after, rfl, same, uncleared, unswept⟩,
      notClear, notFinish⟩)
    · exact ⟨events, request, [], rfl, same, by simp, by simp⟩
    · refine ⟨before, request, after ++ [event], by simp, same, ?_, fun younger member => ?_⟩
      · simpa [uncleared] using notClear.symm
      · rcases List.mem_append.1 member with earlier | isLast
        · exact unswept younger earlier
        · exact notFinish younger (List.mem_singleton.1 isLast).symm

@[simp] theorem survivors_nil : survivors [] key = ∅ := by
  simp [survivors, ReadSurvives]

theorem survivors_read :
    survivors (events ++ [.read pass request]) key =
      if key = request.key then insert pass (survivors events key) else survivors events key := by
  ext other
  by_cases same : key = request.key
  · simp [survivors, readSurvives_snoc, same, eq_comm]
  · simp [survivors, readSurvives_snoc, same, Ne.symm same]

theorem survivors_finish :
    survivors (events ++ [.finish pass]) key = {other ∈ survivors events key | pass ≤ other} := by
  ext other
  simp [survivors, readSurvives_snoc]

theorem survivors_begin :
    survivors (events ++ [.begin]) key = survivors events key := by
  ext other
  simp [survivors, readSurvives_snoc]

theorem survivors_drop :
    survivors (events ++ [.drop pass]) key = survivors events key := by
  ext other
  simp [survivors, readSurvives_snoc]

@[simp] theorem survivors_clear : survivors (events ++ [.clear]) key = ∅ := by
  ext other
  simp [survivors, readSurvives_snoc]

/-- The greatest of some passes, if there are any. -/
def Latest (passes : Set Nat) : Option Nat → Prop
  | none => passes = ∅
  | some last => IsGreatest passes last

/-- A sweep keeps the greatest pass unless it drops all. -/
theorem Latest.sweep {passes : Set Nat} {last? : Option Nat} (latest : Latest passes last?)
    (pass : Nat) : Latest {other ∈ passes | pass ≤ other} (last?.filter (pass ≤ ·)) := by
  cases last? with
  | none =>
      rw [show passes = ∅ from latest]
      exact Set.eq_empty_of_forall_notMem fun _ member => member.1
  | some last =>
      by_cases kept : pass ≤ last
      · rw [Option.filter_some_pos (by simpa using kept)]
        exact ⟨⟨latest.1, kept⟩, fun other member => latest.2 member.1⟩
      · rw [Option.filter_some_neg (by simpa using kept)]
        exact Set.eq_empty_of_forall_notMem fun other member =>
          kept (Nat.le_trans member.2 (latest.2 member.1))

theorem Latest.insert {passes : Set Nat} {last? : Option Nat} (latest : Latest passes last?)
    (pass : Nat) : Latest (insert pass passes) (some ((last?.map (max · pass)).getD pass)) := by
  cases last? with
  | none =>
      rw [show passes = ∅ from latest, LawfulSingleton.insert_empty_eq]
      exact isGreatest_singleton
  | some last =>
      have greatest : IsGreatest _ (max pass last) := IsGreatest.insert pass latest
      rw [Nat.max_comm] at greatest
      exact greatest

/-- The pass noted with a key is the greatest of those with a surviving read of it. -/
theorem latest_survivors (events : List CacheEvent) (key : CacheKey) :
    Latest (survivors events key) ((empty.replay events).lastPass? key) := by
  -- From the last event back, since a read survives by what comes after it.
  induction events using List.reverseRecOn with
  | nil =>
      rw [survivors_nil]
      cases key <;> rfl
  | append_singleton events event ih =>
      rw [replay_append, replay_cons, replay_nil]
      cases event with
      | begin =>
          rw [survivors_begin, lastPass?_begin]
          exact ih
      | drop pass =>
          rw [survivors_drop]
          exact ih
      | clear => simp [Latest]
      | finish pass =>
          rw [survivors_finish, lastPass?_finish]
          exact ih.sweep pass
      | read pass request =>
          rw [survivors_read, lastPass?_read]
          split
          · exact ih.insert pass
          · exact ih

theorem holds_iff_readSurvives :
    (empty.replay events).Holds key ↔ ∃ pass, ReadSurvives events key pass := by
  have latest := latest_survivors events key
  rw [holds_iff]
  cases last : (empty.replay events).lastPass? key with
  | none =>
      rw [last] at latest
      have nobody : survivors events key = ∅ := latest
      simpa [survivors, Set.eq_empty_iff_forall_notMem] using nobody
  | some pass =>
      rw [last] at latest
      exact ⟨fun _ => ⟨pass, latest.1⟩, fun _ => rfl⟩

/-- The tables and the counts of a cache are those that its history tells. -/
structure Accounted (events : List CacheEvent) (cache : Cache) : Prop where
  replayed : cache = empty.replay events
  contents : ∀ key, cache.Holds key ↔ ∃ pass, ReadSurvives events key pass
  /-- A read moves one of the counts, depending on what is kept right before it. -/
  read : ∀ before pass request after, events = before ++ .read pass request :: after →
    let prior := empty.replay before
    let next := (CacheEvent.read pass request).apply prior
    if prior.Holds request.key then next.hits = prior.hits + 1 ∧ next.misses = prior.misses
    else next.hits = prior.hits ∧ next.misses = prior.misses + 1
  other : ∀ before event after, events = before ++ event :: after →
    (∀ pass request, event ≠ .read pass request) →
      let prior := empty.replay before
      (event.apply prior).hits = prior.hits ∧ (event.apply prior).misses = prior.misses

/-- A key is kept after a history exactly when a read of it survives; each read of the history moved
one count, by whether its key was kept before it, and nothing else moved one. -/
theorem History.accounted {cache : Cache} {opened : List Nat}
    (history : History events cache opened) : Accounted events cache where
  replayed := history.eq_replay
  contents key := by
    rw [history.eq_replay]
    exact holds_iff_readSurvives
  read before pass request _ _ := by
    intro prior next
    have counts := counts_read prior pass request
    split
    next kept => simpa [kept] using counts
    next absent => simpa [absent] using counts
  other _ _ _ _ notRead := counts_other notRead

/-- The pass begun second finishes first and sweeps what the older one has read, which reads it once
more and misses again. -/
theorem accounted_after_younger_finish :
    ∃ cache, Accounted [.begin, .begin, .read 1 (.properties none), .finish 2,
        .read 1 (.properties (some ""))] cache ∧
      cache.hits = 0 ∧ cache.misses = 2 :=
  ⟨_, ((((History.start.begin.begin).read (by decide) (.properties none)).finish
    (by decide)).read (by decide) (.properties (some ""))).accounted, by decide, by decide⟩

end BuildConstants.Cache
