import BuildConstants.Generation.Pass
import BuildConstants.Proofs.Generation.Signal
import Mathlib.Control.Lawful

/-!
# The output of a pass

Whatever monad its stages live in, a pass asks them for the verdicts on the declarations that the
signal lets it reach and then for the texts of the groups that it reaches. `Stages.run_verdicts` and
`Stages.run_units` state that for the two loops; `GenerationOutput.ofVerdicts` is the output of a
pass that is not stopped, and `generate_eq` says when a pass computed afresh has it.
-/

namespace BuildConstants

/-- The file names that groups get, one after the other. -/
def Group.filenames : Filenames → List Group → List String
  | _, [] => []
  | names, g :: rest =>
    let (filename, names) := names.allocate g.container.namespaceName g.container.name
    filename :: filenames names rest

/-- The groups of the models among some verdicts. -/
def Group.ofVerdicts (verdicts : List Verdict) : List Group :=
  Group.ofModels (verdicts.filterMap Verdict.model?)

/-- The groups of the accepted ones among some declarations. -/
def Group.ofDeclarations (declarations : List Declaration) : List Group :=
  Group.ofVerdicts (declarations.map Declaration.verdict)

namespace GenerationOutput

/-- The output of a pass that finds the given verdicts and, for the groups of their models, the
given texts. -/
def assembled (options : GenerateOptions) (verdicts : List Verdict) (texts : List String) :
    GenerationOutput :=
  let markers := if options.emitMarker then [SourceUnit.marker options.markerNamespace] else []
  let names := if options.emitMarker then Filenames.empty.reserve markerFilename else .empty
  { units :=
      markers ++ (Group.filenames names (Group.ofVerdicts verdicts)).zipWith SourceUnit.mk texts
    diagnostics := verdicts.filterMap Verdict.diagnostic? }

/-- The output of a pass that finds the given properties and verdicts. -/
def ofVerdicts (options : GenerateOptions) (properties : PropertyMap) (verdicts : List Verdict) :
    GenerationOutput :=
  assembled options verdicts ((Group.ofVerdicts verdicts).map (·.unitText properties))

/-- The units of a pass follow from the groups that its verdicts form. -/
theorem units_ofVerdicts_congr {options : GenerateOptions} {properties : PropertyMap}
    {first second : List Verdict} (groups : Group.ofVerdicts first = Group.ofVerdicts second) :
    (ofVerdicts options properties first).units = (ofVerdicts options properties second).units := by
  simp only [ofVerdicts, assembled, groups]

end GenerationOutput

namespace Stages

variable {m : Type → Type} [Monad m] [LawfulMonad m] {signal : Signal} {number : Nat}

/-- The verdicts are asked for in the order of the declarations, up to the first check that finds
the signal raised. -/
theorem run_verdicts (stages : Stages m) (declarations : List Declaration) :
    (stages.verdicts signal number declarations).run =
      (fun found =>
        if signal.stops number declarations.length then .error .cancelled else .ok found) <$>
          (signal.reached number declarations).mapM stages.verdict := by
  induction declarations generalizing number with
  | nil => simp [verdicts]
  | cons d rest ih =>
      rw [List.length_cons, Signal.stops_succ, Signal.reached_cons]
      cases raised : signal.isRaisedBy number with
      | true => simp [verdicts, check, Signal.check, raised]
      | false =>
          cases stopped : signal.stops (number + 1) rest.length <;>
            simp [verdicts, check, Signal.check, raised, ih, stopped, Except.map]

/-- The texts are asked for in the order of the groups, up to the first check that finds the signal
raised. The names do not depend on them. -/
theorem run_units (stages : Stages m) (properties : PropertyMap) (names : Filenames)
    (groups : List Group) :
    (stages.units signal properties number names groups).run =
      (fun texts =>
        if signal.stops number groups.length then .error .cancelled
        else .ok ((Group.filenames names groups).zipWith SourceUnit.mk texts)) <$>
          (signal.reached number groups).mapM (stages.unitText · properties) := by
  induction groups generalizing number names with
  | nil => simp [units, Group.filenames]
  | cons g rest ih =>
      rw [List.length_cons, Signal.stops_succ, Signal.reached_cons]
      cases raised : signal.isRaisedBy number with
      | true => simp [units, check, Signal.check, raised]
      | false =>
          cases stopped : signal.stops (number + 1) rest.length <;>
            simp [units, check, Signal.check, raised, ih, stopped, Except.map, Group.filenames]

/-- A whole pass in the order in which it asks its stages. A pass that is stopped before a
declaration forms no groups. -/
theorem run_run (stages : Stages m) (options : GenerateOptions) (raw : Option String)
    (declarations : List Declaration) :
    (stages.run options raw declarations signal).run =
      (stages.properties raw >>= fun properties =>
        (signal.reached 0 declarations).mapM stages.verdict >>= fun found =>
          if signal.stops 0 declarations.length then pure (.error .cancelled)
          else
            (fun texts =>
              if signal.stops declarations.length (Group.ofVerdicts found).length then
                .error .cancelled
              else .ok (.assembled options found texts)) <$>
              (signal.reached declarations.length (Group.ofVerdicts found)).mapM
                (stages.unitText · properties)) := by
  simp only [run, ExceptT.run_bind, run_verdicts, run_units, ExceptT.run_monadLift, bind_map_left]
  refine bind_congr fun properties => bind_congr fun found => ?_
  cases stopped : signal.stops 0 declarations.length with
  | true => simp
  | false =>
      rw [map_eq_pure_bind]
      refine bind_congr fun texts => ?_
      simp only [GenerationOutput.assembled, Group.ofVerdicts]
      by_cases later : signal.stops declarations.length
        (Group.ofModels (found.filterMap Verdict.model?)).length <;> simp [later]

end Stages

/-- A pass computed afresh either gives the output of the verdicts on its declarations or is stopped
by one of its checks: one before each declaration and one before each group. -/
theorem generate_eq (options : GenerateOptions) (raw : Option String)
    (declarations : List Declaration) (signal : Signal) :
    generate options raw declarations signal =
      if signal.stops 0 (declarations.length + (Group.ofDeclarations declarations).length) then
        .error .cancelled
      else
        .ok (.ofVerdicts options (.resolve raw) (declarations.map Declaration.verdict)) := by
  unfold generate
  rw [Stages.run_run, Signal.stops_add]
  cases stopped : signal.stops 0 declarations.length with
  | true => simp
  | false =>
      rw [Signal.reached_of_not_stops stopped]
      simp only [Stages.direct, Bool.false_eq_true, ↓reduceIte, Bool.false_or, Nat.zero_add,
        List.idRun_mapM, Id.run_bind, Id.run_map]
      have groups : Group.ofVerdicts (declarations.map fun d => Id.run d.verdict) =
          Group.ofDeclarations declarations := rfl
      rw [groups]
      cases later : signal.stops declarations.length (Group.ofDeclarations declarations).length with
      | true => rfl
      | false =>
          rw [Signal.reached_of_not_stops later]
          rfl

end BuildConstants
