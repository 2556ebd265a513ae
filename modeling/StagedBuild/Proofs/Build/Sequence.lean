import StagedBuild.Build.Whole
import StagedBuild.Proofs.Action.Steps

/-!
A whole build as one sequence of stages. The stages of a build ask for the results of others, and
results that are there are given again; from no results this runs the stages one after the other,
each once.
-/

namespace StagedBuild

open Action

namespace StageResults

variable {α β : Type}

theorem runFrom_pure (results : StageResults) (a : α) :
    runFrom results (pure a : Staged α) = pure (.ok a, results) := rfl

theorem perform_runFrom_bind (results : StageResults) (staged : Staged α) (next : α → Staged β)
    (around : Surroundings) (w : World) :
    perform (runFrom results (staged >>= next)) around w =
      match perform (runFrom results staged) around w with
      | (.ok (.ok a, results'), w') => perform (runFrom results' (next a)) around w'
      | (.ok (.error fault, results'), w') => (.ok (.error fault, results'), w')
      | (.error fault, w') => (.error fault, w') := by
  change perform (runFrom results staged >>= fun r => _) around w = _
  rw [perform_bind]
  rcases perform (runFrom results staged) around w with ⟨_ | ⟨_ | a, results'⟩, w'⟩ <;> rfl

theorem perform_runFrom_get (results : StageResults) (around : Surroundings) (w : World) :
    perform (runFrom results (get : Staged StageResults)) around w =
      (.ok (.ok results, results), w) := rfl

theorem perform_runFrom_modify (f : StageResults → StageResults) (results : StageResults)
    (around : Surroundings) (w : World) :
    perform (runFrom results (modify f : Staged PUnit)) around w =
      (.ok (.ok ⟨⟩, f results), w) := rfl

theorem perform_runFrom_ofAction (action : Action α) (results : StageResults)
    (around : Surroundings) (w : World) :
    perform (runFrom results (ofAction action)) around w =
      (.ok ((perform action around w).1, results), (perform action around w).2) := rfl

theorem runFrom_demand_some {plan : Plan} {slot : Slot α} {compute : Action α}
    {results : StageResults} {a : α} (h : slot.result? results = some a) :
    runFrom results (demand plan slot compute) = pure (.ok a, results) := by
  funext around
  funext w
  change perform (runFrom results (demand plan slot compute)) around w = _
  rw [demand, perform_runFrom_bind, perform_runFrom_get]
  simp only [h]
  rfl

/-- A stage with its announcement. -/
def announced (plan : Plan) (stage : Stage) (compute : Action α) : Action α := do
  if plan.verbose then Action.say stage.announcement
  compute

/-- The results with that of one more stage. -/
def kept (slot : Slot α) (a : α) (results : StageResults) : StageResults :=
  { slot.keep a results with finished := (slot.keep a results).finished ++ [slot.stage] }

theorem perform_runFrom_demand_none {plan : Plan} {slot : Slot α} {compute : Action α}
    {results : StageResults} (h : slot.result? results = none) (around : Surroundings)
    (w : World) :
    perform (runFrom results (demand plan slot compute)) around w =
      match perform (announced plan slot.stage compute) around w with
      | (.ok a, w') => (.ok (.ok a, kept slot a results), w')
      | (.error fault, w') => (.ok (.error fault, results), w') := by
  have hstage : ∀ v, perform (runFrom results (do
      let result ← ofAction compute
      modify (kept slot result)
      return result)) around v =
        match perform compute around v with
        | (.ok a, w') => (.ok (.ok a, kept slot a results), w')
        | (.error fault, w') => (.ok (.error fault, results), w') := by
    intro v
    rw [perform_runFrom_bind, perform_runFrom_ofAction]
    rcases perform compute around v with ⟨_ | a, w'⟩
    · rfl
    · simp only [perform_runFrom_bind, perform_runFrom_modify, runFrom_pure, perform_pure]
  rw [demand, perform_runFrom_bind, perform_runFrom_get]
  simp only [h, announced]
  cases plan.verbose with
  | false => exact hstage w
  | true =>
      simp only [if_true]
      rw [perform_runFrom_bind, perform_runFrom_ofAction, perform_bind]
      exact hstage _

end StageResults

namespace Build

open StageResults

/-- All stages, one after the other. -/
def inSequence (plan : Plan) (tools : IrTools) : Action Result := do
  let l ← announced plan .linkIr (Intermediate.link plan tools)
  let defns ← announced plan .optimize (Intermediate.optimize plan tools l)
  let units ← announced plan .generate (Units.generate plan tools defns)
  let objects ← announced plan .compileUnits (Units.compileEach plan units)
  let library ← announced plan .compileLibrary (NativeLibrary.assemble plan l.links)
  let output ← announced plan .linkExecutable
    (Executable.link plan objects library.objects l.links)
  return ⟨output, units, objects, library, Stage.all⟩

/-- A build runs its stages one after the other, each at most once. -/
theorem build_eq_inSequence (plan : Plan) (tools : IrTools) :
    build plan tools = inSequence plan tools := by
  apply ext_perform
  intro around w
  have hbuild : perform (build plan tools) around w =
      match perform (runFrom .empty (stages plan tools)) around w with
      | (.ok (outcome, _), w') => (outcome, w')
      | (.error fault, w') => (.error fault, w') := by
    rw [build, perform_bind]
    rcases perform (runFrom .empty (stages plan tools)) around w with ⟨_ | ⟨outcome, r⟩, w'⟩
    · rfl
    · simp
  rw [hbuild, inSequence, stages]
  simp only [outputStage, unitObjectsStage, unitsStage, optimizedStage, libraryStage, linkedStage,
    perform_runFrom_bind, perform_bind]
  rw [perform_runFrom_demand_none rfl]
  rcases h₁ : perform (announced plan .linkIr (Intermediate.link plan tools)) around w with
    ⟨_ | l, w₁⟩
  · rfl
  dsimp only
  rw [runFrom_demand_some rfl, perform_pure]
  dsimp only
  rw [perform_runFrom_demand_none rfl]
  rcases h₂ : perform (announced plan .optimize (Intermediate.optimize plan tools l)) around w₁
    with ⟨_ | defns, w₂⟩
  · rfl
  dsimp only
  rw [perform_runFrom_demand_none rfl]
  rcases h₃ : perform (announced plan .generate (Units.generate plan tools defns)) around w₂
    with ⟨_ | units, w₃⟩
  · rfl
  dsimp only
  rw [perform_runFrom_demand_none rfl]
  rcases h₄ : perform (announced plan .compileUnits (Units.compileEach plan units)) around w₃
    with ⟨_ | objects, w₄⟩
  · rfl
  dsimp only
  rw [runFrom_demand_some rfl, perform_pure]
  dsimp only
  rw [perform_runFrom_demand_none rfl]
  rcases h₅ : perform (announced plan .compileLibrary (NativeLibrary.assemble plan l.links))
    around w₄ with ⟨_ | library, w₅⟩
  · rfl
  dsimp only
  rw [perform_runFrom_demand_none rfl]
  rcases h₆ : perform (announced plan .linkExecutable
    (Executable.link plan objects library.objects l.links)) around w₅ with ⟨_ | output, w₆⟩
  · rfl
  -- every stage has its result now, and giving it again does nothing
  dsimp only
  iterate 9
    rw [runFrom_demand_some rfl, perform_pure]
    dsimp only
  rfl

end Build

end StagedBuild
