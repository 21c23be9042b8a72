import BuildConstants.Generation.Cancellation
import Mathlib.Data.List.Induction

/-!
# Tokens over time

While a pass runs, tokens are made, copied and cancelled. A signal that is raised stays raised and a
token watches one signal for good, so a token is found cancelled exactly when, at some time before,
one of the tokens that watch its signal was cancelled: `Tokens.isCancelled_after_iff`. What a pass
needs to know of this is the first check before which it happens; `Signal.watching` finds it.
-/

namespace BuildConstants

/-- What is done with tokens. -/
inductive TokenEvent where
  | fresh
  | copy (index : Nat)
  | cancel (index : Nat)
deriving DecidableEq

/-- The tokens after an event. -/
def TokenEvent.apply : TokenEvent → Tokens → Tokens
  | .fresh, tokens => tokens.fresh
  | .copy index, tokens => tokens.copy index
  | .cancel index, tokens => tokens.cancel index

namespace Tokens

/-- What becomes of one token by some events, the first one first. -/
def after (events : List TokenEvent) : Tokens :=
  events.foldl (fun tokens event => event.apply tokens) single

@[simp] theorem after_nil : after [] = single := rfl

@[simp] theorem after_snoc (events : List TokenEvent) (event : TokenEvent) :
    after (events ++ [event]) = event.apply (after events) :=
  List.foldl_append

variable {tokens : Tokens} {event : TokenEvent} {events later : List TokenEvent}
  {index signal : Nat}

/-- Every token watches a signal that there is. -/
def WellFormed (tokens : Tokens) : Prop :=
  ∀ signal ∈ tokens.watched, signal < tokens.raised.length

theorem WellFormed.apply (wellFormed : tokens.WellFormed) (event : TokenEvent) :
    (event.apply tokens).WellFormed := by
  intro signal member
  cases event with
  | fresh =>
      simp only [TokenEvent.apply, fresh, List.mem_append, List.mem_singleton] at member
      rw [TokenEvent.apply, fresh, List.length_append, List.length_singleton]
      rcases member with old | rfl
      · exact Nat.lt_succ_of_lt (wellFormed signal old)
      · exact Nat.lt_succ_self _
  | copy index =>
      cases watched : tokens.watched[index]? with
      | none =>
          simp only [TokenEvent.apply, copy, watched] at member ⊢
          exact wellFormed signal member
      | some source =>
          simp only [TokenEvent.apply, copy, watched, List.mem_append,
            List.mem_singleton] at member ⊢
          rcases member with old | rfl
          · exact wellFormed signal old
          · exact wellFormed signal (List.mem_of_getElem? watched)
  | cancel index =>
      cases watched : tokens.watched[index]? with
      | none =>
          simp only [TokenEvent.apply, cancel, watched] at member ⊢
          exact wellFormed signal member
      | some source =>
          simp only [TokenEvent.apply, cancel, watched, List.length_set] at member ⊢
          exact wellFormed signal member

theorem wellFormed_after (events : List TokenEvent) : (after events).WellFormed := by
  induction events using List.reverseRecOn with
  | nil => simp [WellFormed, single]
  | append_singleton events event ih =>
      rw [after_snoc]
      exact ih.apply event

/-- A token goes on watching its signal. -/
theorem watched_apply (watches : tokens.watched[index]? = some signal) (event : TokenEvent) :
    (event.apply tokens).watched[index]? = some signal := by
  have early : ∀ more, (tokens.watched ++ more)[index]? = some signal := by
    intro more
    rw [List.getElem?_append_left (List.getElem?_eq_some_iff.1 watches).1]
    exact watches
  cases event with
  | fresh => exact early _
  | copy source =>
      rw [TokenEvent.apply, copy]
      split
      next => exact watches
      next => exact early _
  | cancel source =>
      rw [TokenEvent.apply, cancel]
      split <;> exact watches

theorem watched_after_append (watches : (after events).watched[index]? = some signal)
    (later : List TokenEvent) : (after (events ++ later)).watched[index]? = some signal := by
  induction later using List.reverseRecOn with
  | nil => rwa [List.append_nil]
  | append_singleton later event ih =>
      rw [← List.append_assoc, after_snoc]
      exact watched_apply ih event

/-- A signal is raised by cancelling a token that watches it, and by nothing else. -/
theorem raised_apply (wellFormed : tokens.WellFormed) :
    (event.apply tokens).raised[signal]? = some true ↔
      tokens.raised[signal]? = some true ∨
        ∃ clone, event = .cancel clone ∧ tokens.watched[clone]? = some signal := by
  cases event with
  | fresh =>
      simp only [TokenEvent.apply, fresh, reduceCtorEq, false_and, exists_false, or_false,
        List.getElem?_append]
      split
      next => rfl
      next beyond => simp [List.getElem?_eq_none (Nat.le_of_not_lt beyond),
          List.getElem?_singleton]
  | copy source =>
      rw [TokenEvent.apply, copy]
      split <;> simp
  | cancel clone =>
      simp only [TokenEvent.apply, cancel, TokenEvent.cancel.injEq, exists_eq_left']
      cases watched : tokens.watched[clone]? with
      | none => simp
      | some source =>
          have there := wellFormed source (List.mem_of_getElem? watched)
          simp only [List.getElem?_set, Option.some.injEq]
          by_cases same : source = signal
          · subst same
            simp [there]
          · simp [same]

/-- A raised signal has been raised by cancelling a token that watched it. -/
theorem raised_after_iff :
    (after events).raised[signal]? = some true ↔
      ∃ earlier clone rest, events = earlier ++ .cancel clone :: rest ∧
        (after earlier).watched[clone]? = some signal := by
  induction events using List.reverseRecOn with
  | nil =>
      cases signal <;> simp [single]
  | append_singleton events event ih =>
      rw [after_snoc, raised_apply (wellFormed_after events), ih]
      constructor
      · rintro (⟨earlier, clone, rest, rfl, watches⟩ | ⟨clone, rfl, watches⟩)
        · exact ⟨earlier, clone, rest ++ [event], by simp, watches⟩
        · exact ⟨events, clone, [], rfl, watches⟩
      · rintro ⟨earlier, clone, rest, split, watches⟩
        rcases List.eq_nil_or_concat rest with rfl | ⟨rest, last, rfl⟩
        · obtain ⟨rfl, same⟩ := List.append_inj' split rfl
          exact .inr ⟨clone, List.singleton_inj.1 same, watches⟩
        · have whole : events ++ [event] = (earlier ++ .cancel clone :: rest) ++ [last] := by
            rw [split, List.concat_eq_append, List.append_assoc, List.cons_append]
          exact .inl ⟨earlier, clone, rest, (List.append_inj' whole rfl).1, watches⟩

theorem isCancelled_iff :
    tokens.isCancelled index ↔
      ∃ signal, tokens.watched[index]? = some signal ∧ tokens.raised[signal]? = some true := by
  unfold isCancelled
  cases tokens.watched[index]? with
  | none => simp
  | some signal =>
      cases raised : tokens.raised[signal]? <;> simp [raised]

/-- In the course of some events a token is cancelled that watches the signal of the token at
`index`: this token itself, or one that it was copied to or from. -/
def RaisedIn (events : List TokenEvent) (index : Nat) : Prop :=
  ∃ earlier clone rest signal, events = earlier ++ .cancel clone :: rest ∧
    (after earlier).watched[clone]? = some signal ∧ (after events).watched[index]? = some signal

/-- A token is found cancelled when it or one that shares its signal has been cancelled. -/
theorem isCancelled_after_iff : (after events).isCancelled index ↔ RaisedIn events index := by
  rw [isCancelled_iff]
  constructor
  · rintro ⟨signal, watches, raised⟩
    obtain ⟨earlier, clone, rest, split, shares⟩ := raised_after_iff.1 raised
    exact ⟨earlier, clone, rest, signal, split, shares, watches⟩
  · rintro ⟨earlier, clone, rest, signal, split, shares, watches⟩
    exact ⟨signal, watches, raised_after_iff.2 ⟨earlier, clone, rest, split, shares⟩⟩

/-- A token that is cancelled stays cancelled. -/
theorem isCancelled_after_append (cancelled : (after events).isCancelled index)
    (later : List TokenEvent) : (after (events ++ later)).isCancelled index := by
  obtain ⟨earlier, clone, rest, signal, split, shares, watches⟩ :=
    isCancelled_after_iff.1 cancelled
  refine isCancelled_after_iff.2 ⟨earlier, clone, rest ++ later, signal, ?_, shares,
    watched_after_append watches later⟩
  rw [split, List.append_assoc, List.cons_append]

/-- A copy and its original are cancelled alike, whatever is done with the two later. -/
theorem isCancelled_copy (present : index < (after events).watched.length)
    (later : List TokenEvent) :
    (after (events ++ .copy index :: later)).isCancelled (after events).watched.length =
      (after (events ++ .copy index :: later)).isCancelled index := by
  have original := List.getElem?_eq_getElem present
  have copied : (after (events ++ [.copy index])).watched[(after events).watched.length]? =
      some (after events).watched[index] := by
    rw [after_snoc, TokenEvent.apply, copy, original]
    exact List.getElem?_concat_length
  have copyWatches := watched_after_append copied later
  have originalWatches := watched_after_append original (.copy index :: later)
  rw [List.append_assoc, List.singleton_append] at copyWatches
  rw [isCancelled, isCancelled, copyWatches, originalWatches]

end Tokens

/-- What is done with tokens in the course of a pass: the first entry before the first check, while
the declarations are asked for or earlier, and each further one before the next check. -/
abbrev TokenTimeline : Type :=
  List (List TokenEvent)

namespace TokenTimeline

variable {timeline : TokenTimeline} {index number earlier : Nat}

/-- All that is done before the check with the given number. -/
def before (timeline : TokenTimeline) (number : Nat) : List TokenEvent :=
  (timeline.take (number + 1)).flatten

/-- What has been done before a check has been done before later ones. -/
theorem before_append (timeline : TokenTimeline) (ordered : earlier ≤ number) :
    ∃ later, timeline.before number = timeline.before earlier ++ later := by
  have prefixes : timeline.take (earlier + 1) <+: timeline.take (number + 1) :=
    List.take_prefix_take_left (by omega)
  obtain ⟨rest, whole⟩ := prefixes
  refine ⟨rest.flatten, ?_⟩
  rw [before, before, ← whole, List.flatten_append]

/-- Nothing is done after the end of a timeline. -/
theorem before_of_length_le (beyond : timeline.length ≤ number) :
    timeline.before number = timeline.before timeline.length := by
  rw [before, before, List.take_of_length_le (by omega), List.take_of_length_le (by omega)]

/-- The check with the given number finds the token at `index` cancelled. -/
def finds (timeline : TokenTimeline) (index number : Nat) : Bool :=
  (Tokens.after (timeline.before number)).isCancelled index

theorem finds_mono (ordered : earlier ≤ number) (found : timeline.finds index earlier) :
    timeline.finds index number := by
  obtain ⟨later, whole⟩ := before_append timeline ordered
  rw [finds, whole]
  exact Tokens.isCancelled_after_append found later

end TokenTimeline

/-- The signal that a pass sees through the token at `index`. -/
def Signal.watching (timeline : TokenTimeline) (index : Nat) : Signal :=
  ⟨(List.range (timeline.length + 1)).find? (timeline.finds index)⟩

/-- The signal is raised by the time of a check when the check finds the token cancelled. -/
theorem Signal.isRaisedBy_watching (timeline : TokenTimeline) (index number : Nat) :
    (watching timeline index).isRaisedBy number = timeline.finds index number := by
  rw [Bool.eq_iff_iff, isRaisedBy, watching, Option.any_eq_true]
  constructor
  · rintro ⟨first, isFirst, ordered⟩
    exact TokenTimeline.finds_mono (of_decide_eq_true ordered) (List.find?_some isFirst)
  · intro found
    -- Checks behind the end of the timeline find what the one at its end does.
    have atEnd : timeline.finds index (min number timeline.length) := by
      by_cases inside : number ≤ timeline.length
      · rwa [Nat.min_eq_left inside]
      · have beyond : timeline.length ≤ number := by omega
        rw [Nat.min_eq_right beyond]
        rwa [TokenTimeline.finds, TokenTimeline.before_of_length_le beyond] at found
    have looked : ((List.range (timeline.length + 1)).find? (timeline.finds index)).isSome := by
      refine List.find?_isSome.2 ⟨_, List.mem_range.2 ?_, atEnd⟩
      omega
    obtain ⟨first, isFirst⟩ := Option.isSome_iff_exists.1 looked
    refine ⟨first, isFirst, decide_eq_true ?_⟩
    have none := (List.find?_range_eq_some.1 isFirst).2.2
    by_contra later
    have missed := none (min number timeline.length) (by omega)
    simp [atEnd] at missed

end BuildConstants
