import BuildConstants.Proofs.Cache.Event
import BuildConstants.Proofs.Declaration.Identity

/-!
# Kept results are recomputations

`Cache.Sound` says that each kept result is what its stage computes from the key: the properties of
the text, the text of the unit, and the verdict on some declaration of the identity. The key does
not determine a verdict, so the declaration is left open. Every event preserves soundness, whatever
pass it belongs to.
-/

namespace BuildConstants

/-- An absent raw text configures what the empty one does. -/
theorem PropertyMap.resolve_getD (raw : Option String) :
    resolve (some (raw.getD "")) = resolve raw := by
  cases raw with
  | none => rfl
  | some _ => rfl

namespace Cache

/-- Every kept result is one that its stage computes for the key. -/
structure Sound (cache : Cache) : Prop where
  properties : cache.properties.Keeps fun text map => map = PropertyMap.resolve (some text)
  verdicts : cache.verdicts.Keeps fun identity verdict =>
    ∃ d : Declaration, d.identity = identity ∧ d.verdict = verdict
  unitTexts : cache.unitTexts.Keeps fun key text => text = key.group.textWith key.values

theorem Sound.empty : Cache.empty.Sound where
  properties := .empty
  verdicts := .empty
  unitTexts := .empty

variable {cache : Cache}

/-- Every event keeps a cache sound. -/
theorem Sound.apply (sound : cache.Sound) (event : CacheEvent) : (event.apply cache).Sound := by
  cases event with
  | begin => exact ⟨sound.properties, sound.verdicts, sound.unitTexts⟩
  | drop _ => exact sound
  | clear => exact ⟨.empty, .empty, .empty⟩
  | finish pass => exact ⟨sound.properties.sweep, sound.verdicts.sweep, sound.unitTexts.sweep⟩
  | read pass request =>
      cases request with
      | properties raw =>
          rw [CacheEvent.apply, run_readProperties]
          exact ⟨sound.properties.afterRead rfl, sound.verdicts, sound.unitTexts⟩
      | verdict d =>
          rw [CacheEvent.apply, run_readVerdict]
          exact ⟨sound.properties, sound.verdicts.afterRead ⟨d, rfl, rfl⟩, sound.unitTexts⟩
      | unitText g properties =>
          rw [CacheEvent.apply, run_readUnitText]
          exact ⟨sound.properties, sound.verdicts, sound.unitTexts.afterRead rfl⟩

theorem Sound.replay (sound : cache.Sound) (events : List CacheEvent) :
    (cache.replay events).Sound := by
  induction events generalizing cache with
  | nil => exact sound
  | cons event rest ih => exact ih (sound.apply event)

/-! ### What reads of a sound cache hand out -/

variable {pass : Nat}

/-- Reading properties hands out what the raw text configures. -/
theorem Sound.readProperties (sound : cache.Sound) (raw : Option String) :
    ((readProperties pass raw).run cache).1 = PropertyMap.resolve raw := by
  rw [run_readProperties, ← PropertyMap.resolve_getD]
  exact sound.properties.valueOf _ rfl

/-- Reading a unit text hands out the text rendered for the group. -/
theorem Sound.readUnitText (sound : cache.Sound) (g : Group) (properties : PropertyMap) :
    ((readUnitText pass g properties).run cache).1 = g.unitText properties := by
  rw [run_readUnitText]
  exact sound.unitTexts.valueOf (g.unitKey properties) rfl

/-- Reading a verdict hands out that on some declaration of the same identity. -/
theorem Sound.readVerdict (sound : cache.Sound) (pass : Nat) (d : Declaration) :
    ∃ e : Declaration, e.identity = d.identity ∧
      ((Cache.readVerdict pass d).run cache).1 = e.verdict := by
  rw [run_readVerdict]
  obtain ⟨e, same, judged⟩ := sound.verdicts.valueOf d.identity ⟨d, rfl, rfl⟩
  exact ⟨e, same, judged.symm⟩

end Cache

end BuildConstants
