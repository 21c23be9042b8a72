import BuildConstants.Proofs.Cache.Pass

/-!
# Histories of a cache

`Cache.History events cache opened` says that a cache that was empty at first has gone through the
events and is in use by the opened passes. Only an open pass reads, finishes or is dropped; a whole
pass may run between any two events, whether its signal stops it or not, and its own events are
those of `CacheEvent.ofPass`. Every cache with a history is sound and is the replay of its events.
-/

namespace BuildConstants.Cache

/-- The events that a cache has gone through, and the numbers of the passes that are open. -/
inductive History : List CacheEvent → Cache → List Nat → Prop where
  | start : History [] .empty []
  | begin {events cache opened} (prior : History events cache opened) :
      History (events ++ [.begin]) (Cache.begin.run cache).2
        (opened ++ [(Cache.begin.run cache).1])
  | read {events cache opened pass} (prior : History events cache opened)
      (isOpen : pass ∈ opened) (request : CacheRequest) :
      History (events ++ [.read pass request]) ((CacheEvent.read pass request).apply cache) opened
  | finish {events cache opened pass} (prior : History events cache opened)
      (isOpen : pass ∈ opened) :
      History (events ++ [.finish pass]) ((CacheEvent.finish pass).apply cache)
        (opened.erase pass)
  | drop {events cache opened pass} (prior : History events cache opened)
      (isOpen : pass ∈ opened) :
      History (events ++ [.drop pass]) ((CacheEvent.drop pass).apply cache) (opened.erase pass)
  | clear {events cache opened} (prior : History events cache opened) :
      History (events ++ [.clear]) (CacheEvent.clear.apply cache) opened
  | generate {events cache opened} (prior : History events cache opened)
      (options : GenerateOptions) (raw : Option String) (declarations : List Declaration)
      (signal : Signal) :
      History (events ++ CacheEvent.ofPass (cache.passes + 1) raw declarations signal)
        ((generateCached options raw declarations signal).run cache).2 opened

variable {events : List CacheEvent} {cache : Cache} {opened : List Nat}

/-- A cache is the replay of its history: a whole pass does what its events do. -/
theorem History.eq_replay (history : History events cache opened) :
    cache = Cache.empty.replay events := by
  induction history with
  | start => rfl
  | begin _ ih | read _ _ _ ih | finish _ _ ih | drop _ _ ih | clear _ ih =>
      rw [replay_append, ← ih]
      rfl
  | @generate events cache _ _ options raw declarations signal ih =>
      have sound : cache.Sound := ih ▸ Sound.empty.replay events
      rw [replay_append, ← ih, run_generateCached sound]

theorem History.sound (history : History events cache opened) : cache.Sound :=
  history.eq_replay ▸ Sound.empty.replay events

/-- No event takes back the number of a pass that has begun. -/
theorem passes_le_replay (cache : Cache) (events : List CacheEvent) :
    cache.passes ≤ (cache.replay events).passes := by
  induction events generalizing cache with
  | nil => exact Nat.le_refl _
  | cons event rest ih =>
      have step := passes_apply cache event
      have later := ih (event.apply cache)
      rw [replay_cons]
      omega

/-- The passes that are open or have read are among those that have begun. -/
structure Numbered (events : List CacheEvent) (cache : Cache) (opened : List Nat) : Prop where
  opened : ∀ pass ∈ opened, pass ≤ cache.passes
  read : ∀ pass request, .read pass request ∈ events → pass ≤ cache.passes

/-- Further events keep passes numbered when what they add is. -/
theorem Numbered.append {later : List CacheEvent} {next : Cache} {nextOpened : List Nat}
    (numbered : Numbered events cache opened) (grown : cache.passes ≤ next.passes)
    (stillOpen : ∀ pass ∈ nextOpened, pass ∈ opened ∨ pass ≤ next.passes)
    (added : ∀ pass request, .read pass request ∈ later → pass ≤ next.passes) :
    Numbered (events ++ later) next nextOpened where
  opened pass isOpen := (stillOpen pass isOpen).elim
    (fun before => Nat.le_trans (numbered.opened pass before) grown) id
  read pass request member := (List.mem_append.1 member).elim
    (fun before => Nat.le_trans (numbered.read pass request before) grown)
    (added pass request)

/-- The reads of a whole pass are all its own. -/
theorem mem_ofPass {pass number : Nat} {request : CacheRequest} {raw : Option String}
    {declarations : List Declaration} {signal : Signal}
    (member : .read number request ∈ CacheEvent.ofPass pass raw declarations signal) :
    number = pass ∧ request ∈ CacheRequest.ofPass raw declarations signal := by
  simp only [CacheEvent.ofPass, List.cons_append, List.mem_cons, reduceCtorEq, false_or,
    List.mem_append, List.mem_map, CacheEvent.read.injEq, List.not_mem_nil, or_false] at member
  rcases member with ⟨_, own, rfl, rfl⟩ | ending
  · exact ⟨rfl, own⟩
  · split at ending <;> cases ending

theorem History.numbered (history : History events cache opened) :
    Numbered events cache opened := by
  induction history with
  | start => exact ⟨by simp, by simp⟩
  | begin _ ih =>
      refine ih.append (Nat.le_succ _) (fun pass isOpen => ?_) (by simp)
      rcases List.mem_append.1 isOpen with before | new
      · exact .inl before
      · exact .inr (Nat.le_of_eq (List.mem_singleton.1 new))
  | @read events cache _ pass _ isOpen request ih =>
      have same : ((CacheEvent.read pass request).apply cache).passes = cache.passes :=
        passes_apply cache (.read pass request)
      refine ih.append (Nat.le_of_eq same.symm) (fun _ => .inl) (fun other _ member => ?_)
      cases List.mem_singleton.1 member
      exact same ▸ ih.opened _ isOpen
  | finish _ _ ih | drop _ _ ih =>
      exact ih.append (Nat.le_refl _) (fun _ member => .inl (List.mem_of_mem_erase member))
        (by simp)
  | clear _ ih => exact ih.append (Nat.le_refl _) (fun _ => .inl) (by simp)
  | @generate events cache _ prior options raw declarations signal ih =>
      have begun : cache.passes + 1 ≤
          ((generateCached options raw declarations signal).run cache).2.passes := by
        rw [run_generateCached prior.sound]
        simp only [CacheEvent.ofPass, List.cons_append, replay_cons]
        exact passes_le_replay (CacheEvent.begin.apply cache) _
      refine ih.append (by omega) (fun _ => .inl) (fun pass request member => ?_)
      rw [(mem_ofPass member).1]
      exact begun

end BuildConstants.Cache
