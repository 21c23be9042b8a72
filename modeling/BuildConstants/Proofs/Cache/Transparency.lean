import BuildConstants.Proofs.Cache.History

/-!
# A cache is transparent

After any history, what is read through a cache is what is computed afresh, and a whole pass gives
the units and the diagnostics of a pass without a cache. The places of diagnostics are left out
here: a kept verdict may name the file of its location as another declaration spelled it.
-/

namespace BuildConstants

/-- An output with the places of its diagnostics left out. -/
def GenerationOutput.placeless (output : GenerationOutput) :
    List SourceUnit × List (DiagnosticKind × List String) :=
  (output.units, output.diagnostics.map Diagnostic.complaint)

namespace Cache

/-- Whatever is asked of the cache next, the answer is the one computed afresh, up to the places of
diagnostics. -/
structure Transparent (cache : Cache) : Prop where
  properties : ∀ pass raw, ((readProperties pass raw).run cache).1 = PropertyMap.resolve raw
  verdict : ∀ pass d,
    ((readVerdict pass d).run cache).1.mapError Diagnostic.complaint =
      d.verdict.mapError Diagnostic.complaint
  unitText : ∀ pass g properties,
    ((readUnitText pass g properties).run cache).1 = g.unitText properties
  /-- A pass is stopped by its signal with a cache exactly when it is without one. -/
  output : ∀ options raw declarations signal,
    ((generateCached options raw declarations signal).run cache).1.map
        GenerationOutput.placeless =
      (generate options raw declarations signal).map GenerationOutput.placeless
  completes : ∀ options raw declarations,
    ∃ output, ((generateCached options raw declarations .never).run cache).1 = .ok output

variable {cache : Cache}

/-- The diagnostics of a pass over a sound cache say what the ones computed afresh say. -/
theorem Sound.placeless_ofVerdicts (sound : cache.Sound) (options : GenerateOptions)
    (properties : PropertyMap) (declarations : List Declaration) :
    (GenerationOutput.ofVerdicts options properties
        (declarations.map (cache.verdictAmong declarations))).placeless =
      (GenerationOutput.ofVerdicts options properties
        (declarations.map Declaration.verdict)).placeless := by
  have complaints : ∀ d, (cache.verdictAmong declarations d).diagnostic?.map Diagnostic.complaint =
      d.verdict.diagnostic?.map Diagnostic.complaint := by
    intro d
    obtain ⟨e, same, judged⟩ := sound.verdictAmong declarations d
    rw [judged, Declaration.verdict_eq_relocated same]
    cases d.verdict <;> rfl
  refine Prod.ext ?_ ?_
  · exact GenerationOutput.units_ofVerdicts_congr (sound.ofVerdicts_verdictAmong declarations)
  · simp only [GenerationOutput.placeless, GenerationOutput.ofVerdicts, GenerationOutput.assembled,
      List.map_filterMap, List.filterMap_map, Function.comp_def, complaints]

/-- Whatever a cache has gone through, what it hands out is what would be computed without it. -/
theorem History.transparent {events : List CacheEvent} {opened : List Nat}
    (history : History events cache opened) : cache.Transparent where
  properties _ raw := history.sound.readProperties raw
  verdict pass d := by
    obtain ⟨e, same, read⟩ := history.sound.readVerdict pass d
    rw [read]
    exact Declaration.complaint_eq same
  unitText _ g properties := history.sound.readUnitText g properties
  output options raw declarations signal := by
    rw [run_generateCached history.sound, generate_eq, CacheRequest.length_checked]
    split
    · rfl
    · exact congrArg Except.ok (history.sound.placeless_ofVerdicts options _ declarations)
  completes options raw declarations := by
    obtain ⟨output, _, completed⟩ := history.sound.completes options raw declarations
    exact ⟨output, congrArg Prod.fst completed⟩

/-- A pass that is open while a whole one runs finds a verdict on another spelling of its place. -/
theorem transparent_between_passes :
    ∃ cache, History (.begin :: CacheEvent.ofPass 2 none [.unsupportedIn "a/b"] .never ++
        [.read 1 (.verdict (.unsupportedIn "a//b"))]) cache [1] ∧
      cache.hits = 1 ∧ cache.Transparent :=
  have history := (History.start.begin.generate {} none [.unsupportedIn "a/b"] .never).read
    (by decide) (.verdict (.unsupportedIn "a//b"))
  ⟨_, history, by decide +kernel, history.transparent⟩

end Cache

end BuildConstants
