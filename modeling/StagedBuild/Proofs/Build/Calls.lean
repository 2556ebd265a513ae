import StagedBuild.Executable
import StagedBuild.Intermediate.Stages
import StagedBuild.Proofs.NativeLibrary.Preparation
import StagedBuild.Proofs.Pool.Calls
import StagedBuild.Proofs.Units.Listing
import StagedBuild.Units.Compilation

/-!
The calls that each stage of a build makes. A stage of the toolchain is one call of it; compiling
units or sources is one call of a compiler for each, and the final link is one call.
-/

namespace StagedBuild

open Action

variable {around : Surroundings} {plan : Plan} {w w' : World}

/-- From one world to another nothing happened but silent events, and the disk is the same. -/
def Quiet (w v : World) : Prop :=
  Silent w v ∧ v.tree = w.tree

namespace Quiet

instance : Passage Quiet where
  refl w := ⟨Passage.refl w, rfl⟩
  trans h h' := ⟨Passage.trans h.1 h'.1, h'.2.trans h.2⟩

theorem steps_eq {v : World} (around : Surroundings) (h : Quiet w v) :
    v.steps around = w.steps around :=
  h.1.steps_eq around

theorem say (around : Surroundings) (line : String) : Keeps around Quiet (Action.say line) :=
  Keeps.note fun _ => ⟨Silent.of_event rfl, rfl⟩

end Quiet

theorem Ran.of_quiet {call : Invocation} {reply : ToolReply} {v : World} (hv : Quiet v w)
    (h : Ran around call w reply w') : Ran around call v reply w' :=
  Ran.of_silent hv.1 hv.2 h

theorem Tool.ran_run (command : List String) (directory : Option Path) (around : Surroundings)
    (w : World) :
    ∃ reply, Ran around ⟨command, directory⟩ w reply (perform (run command directory) around w).2 ∧
      (perform (run command directory) around w).1 = result command reply := by
  rw [perform_run]
  exact ⟨_, ⟨w, Passage.refl w, rfl, rfl, rfl⟩, rfl⟩

theorem Tool.oneCall_announced {α : Type} (verbose : Bool) (line : α → String)
    (command : α → List String) (directory : Option Path) (hcommand : ∀ item, command item ≠ []) :
    Pool.OneCall around
      (fun item => some <$> (do
        if verbose then Action.say (line item)
        run (command item) directory))
      fun item => ⟨command item, directory⟩ where
  command_ne_nil := hcommand
  ran item w := by
    rw [perform_map]
    cases verbose with
    | false =>
        obtain ⟨reply, hran, houtcome⟩ := ran_run (command item) directory around w
        exact ⟨reply, hran, congrArg (Except.map some) houtcome⟩
    | true =>
        obtain ⟨reply, hran, houtcome⟩ := ran_run (command item) directory around
          (perform (Action.say (line item)) around w).2
        exact ⟨reply, hran.of_quiet (Quiet.say around _ w), congrArg (Except.map some) houtcome⟩

/-- How calls fail: a tool raised a fault, or none did and some ended with another code than
zero. -/
def FailsWith {α : Type} (call : α → Invocation) (toFault : α → ToolResult → BuildFault)
    (answered : List (Pool.Answered α)) (fault : Fault) : Prop :=
  (∃ a ∈ answered, a.reply.raised? = some fault) ∨
    (∀ a ∈ answered, a.reply.raised? = none) ∧
      ∃ a ∈ answered, ∃ r, Tool.result (call a.item).command a.reply = .ok r ∧
        r.success = false ∧ fault = .build (toFault a.item r)

theorem FailsWith.exists_failed {α : Type} {call : α → Invocation}
    {toFault : α → ToolResult → BuildFault} {answered : List (Pool.Answered α)} {fault : Fault}
    (h : FailsWith call toFault answered fault) (hcommand : ∀ item, (call item).command ≠ []) :
    ∃ a ∈ answered, ¬ a.reply.isSuccess = true := by
  rcases h with ⟨a, ha, hraised⟩ | ⟨hunraised, a, ha, r, hr, hfailed, -⟩
  · refine ⟨a, ha, fun hsuccess => ?_⟩
    cases hreply : a.reply <;> simp_all [ToolReply.raised?, ToolReply.isSuccess]
  · obtain ⟨r', hr', hsuccess⟩ := Tool.exists_result (hcommand a.item) (hunraised a ha)
    rw [hr] at hr'
    cases hr'
    exact ⟨a, ha, by rw [← hsuccess, hfailed]; simp⟩

theorem Pool.perform_run_cases {α β : Type} {task : α → Action (Option ToolResult)}
    {call : α → Invocation} (h : OneCall around task call) (items : List α) (jobs : Int)
    {toFault : α → ToolResult → BuildFault} {b : β} {next : PoolRun α → Action β}
    (hnone : ∀ run, run.earliestFailure? = none → next run = pure b)
    (hsome : ∀ run item r, run.earliestFailure? = some (item, r) →
      next run = throw (.build (toFault item r)))
    (w : World) :
    ∃ answered w', RanAll around call w answered w' ∧
      (answered.map Answered.item).Perm items ∧
      ((∀ a ∈ answered, a.reply.isSuccess = true) ∧
          perform (run task items jobs >>= next) around w = (.ok b, w') ∨
        ∃ fault, FailsWith call toFault answered fault ∧
          perform (run task items jobs >>= next) around w = (.error fault, w')) := by
  obtain ⟨answered, taken, w', hall, hperm, htaken, hend⟩ := perform_run h items jobs w
  refine ⟨answered, w', hall, hperm, ?_⟩
  rcases hend with ⟨a, ha, fault, hraised, hrun⟩ | ⟨hunraised, run', hrun, hfailures⟩
  · exact .inr ⟨fault, .inl ⟨a, ha, hraised⟩, perform_bind_error hrun⟩
  · rw [perform_bind_ok hrun]
    rcases hfirst : run'.failures with _ | ⟨⟨item, r⟩, rest⟩
    · have hsuccess := (failures_eq_nil_iff h.command_ne_nil fun a ha =>
        hunraised a (htaken.mem_iff.1 ha)).1 (hfailures ▸ hfirst)
      refine .inl ⟨fun a ha => hsuccess a (htaken.mem_iff.2 ha), ?_⟩
      rw [hnone run' (by simp [PoolRun.earliestFailure?, hfirst]), perform_pure]
    · obtain ⟨a, ha, rfl, hr, hsuccess⟩ := mem_failures
        (show (item, r) ∈ failures call taken by rw [← hfailures, hfirst]; simp)
      refine .inr ⟨_, .inr ⟨hunraised, a, htaken.mem_iff.1 ha, r, hr, hsuccess, rfl⟩, ?_⟩
      rw [hsome run' a.item r (by simp [PoolRun.earliestFailure?, hfirst]), perform_throw]

namespace Build

/-- The call that compiles a unit. -/
def unitCall (plan : Plan) (u : Path) : Invocation :=
  ⟨Units.command plan u, some plan.workdir⟩

/-- The call that compiles a source of the native library. -/
def sourceCall (plan : Plan) (s : NativeLibrary.Source) : Invocation :=
  ⟨NativeLibrary.command plan s, some plan.workdir⟩

section

variable (plan : Plan) (around : Surroundings)

theorem perform_compileEach (units : List Path) (w : World) :
    ∃ answered w', Pool.RanAll around (unitCall plan) w answered w' ∧
      (answered.map Pool.Answered.item).Perm units ∧
      ((∀ a ∈ answered, a.reply.isSuccess = true) ∧
          perform (Units.compileEach plan units) around w =
            (.ok (units.map Path.objectPath), w') ∨
        ∃ fault, FailsWith (unitCall plan) Units.compileFault answered fault ∧
          perform (Units.compileEach plan units) around w = (.error fault, w')) := by
  have hcalls : Pool.OneCall around (fun u => some <$> Units.compileOne plan u)
      (unitCall plan) :=
    Tool.oneCall_announced plan.verbose _ _ _ fun u => by simp [Units.command]
  exact Pool.perform_run_cases hcalls units plan.jobs
    (fun run h => by rw [h]) (fun run u r h => by rw [h]) w

theorem sourceCall_ne_nil (s : NativeLibrary.Source) : (sourceCall plan s).command ≠ [] := by
  change NativeLibrary.command plan s ≠ []
  unfold NativeLibrary.command
  split <;> simp

theorem perform_compilePending (p : NativeLibrary.Preparation) (w : World) :
    ∃ compiled w', Pool.RanAll around (sourceCall plan) w compiled w' ∧
      (compiled.map Pool.Answered.item).Perm p.pending ∧
      ((∀ a ∈ compiled, a.reply.isSuccess = true) ∧
          perform (NativeLibrary.compilePending plan p) around w =
            (.ok ⟨plan.libraryDirectory, p.included.map NativeLibrary.Source.objectPath,
              p.pending.map NativeLibrary.Source.objectPath, p.removed⟩, w') ∨
        ∃ fault, FailsWith (sourceCall plan) NativeLibrary.compileFault compiled fault ∧
          perform (NativeLibrary.compilePending plan p) around w = (.error fault, w')) := by
  have hcalls : Pool.OneCall around (fun s => some <$> NativeLibrary.compile plan s)
      (sourceCall plan) :=
    Tool.oneCall_announced plan.verbose _ _ _ (sourceCall_ne_nil plan)
  exact Pool.perform_run_cases hcalls p.pending plan.jobs
    (fun run h => by rw [h]) (fun run s r h => by rw [h]) w

end

end Build

end StagedBuild
