import StagedBuild.Proofs.Action.Interrupts
import StagedBuild.Proofs.Build.FailStop
import StagedBuild.Proofs.Build.OrdinaryFaults
import StagedBuild.Proofs.Units.Readable

/-!
Interrupts while a build waits for what it has called. A tool raises one when it gives none but that
for a reply, and a call of the toolchain when that is its answer. Whatever else runs beside a tool,
and in which order it ends, an interrupt that one of them raises is what the run ends in.
-/

namespace StagedBuild

open Action Disk

/-- Work on the disk, and what the user is told on the way. -/
def Event.IsTalk : Event → Prop
  | .changed _ | .warned _ | .printed .output _ => True
  | _ => False

/-- All that happens, but that something is printed among the errors. -/
def Event.IsNoError : Event → Prop
  | .printed .errors _ => False
  | _ => True

theorem Event.IsTalk.isNoError {e : Event} (h : e.IsTalk) : e.IsNoError := by
  rcases e with _ | _ | _ | _ | _ | ⟨_ | _, _⟩ | _ | _ | _ | _ <;> trivial

instance : AnyTalk (Tells Event.IsTalk) where
  changed w _ := Tells.changed (by trivial) w
  told w _ := Tells.note (by trivial) (by trivial) w
  warned w _ := Tells.note (by trivial) (by trivial) w

namespace Build

variable {α β : Type} {around : Surroundings} {t : FileTree} {planned : Option (Plan × IrTools)}
  {plan : Plan} {tools : IrTools} {v w : World}

/-- What the toolchain has linked, by the latest call of it. -/
def linkedIn (plan : Plan) (tools : IrTools) (t : FileTree) : List Event → Option Linked
  | [] => none
  | .called (.link entry) :: earlier =>
      (tools.link plan (World.calling ⟨diskAfter t earlier, earlier⟩ (.link entry))).toOption
  | _ :: earlier => linkedIn plan tools t earlier

/-- A call of the toolchain raises an interrupt in the world in which it is made. What is optimized
is what was linked before. -/
def IrInterrupts (plan : Plan) (tools : IrTools) (t : FileTree) (v : World) : IrCall → Prop
  | .link entry => tools.link plan (v.calling (.link entry)) = .error .interrupted
  | .optimize defns mode => ∃ l, linkedIn plan tools t v.history = some l ∧
      tools.optimize plan l (v.calling (.optimize defns mode)) = .error .interrupted
  | .generate defns =>
      (tools.generate plan defns (v.calling (.generate defns))).2 = .error .interrupted

/-- The events that raise an interrupt are calls: of tools, and of the toolchain by the plan of a
build that is planned. -/
def CallRaises (around : Surroundings) (t : FileTree) (planned : Option (Plan × IrTools)) :
    Event → World → Prop
  | .ran call _, v => (around.tool call v).1 = .raised .interrupted
  | .called call, v => ∃ plan tools, planned = some (plan, tools) ∧ IrInterrupts plan tools t v call
  | _, _ => False

theorem not_callRaises_talk (e : Event) (he : e.IsTalk) (v : World) :
    ¬ CallRaises around t planned e v := by
  cases e <;> first | exact he.elim | exact not_false

/-- An action surfaces the interrupts of what it calls, and prints no errors. -/
abbrev SurfacesCalls (around : Surroundings) (t : FileTree) (planned : Option (Plan × IrTools))
    (action : Action α) : Prop :=
  Surfaces Event.IsNoError (CallRaises around t planned) t around action

theorem surfaces_calm {action : Action α} (hkeeps : Keeps around (Tells Event.IsTalk) action)
    (honly : FailsOnly (· ≠ .interrupted) action) : SurfacesCalls around t planned action :=
  .of_calm hkeeps (fun _ => Event.IsTalk.isNoError) not_callRaises_talk honly

theorem surfaces_silently {action : Action α} (hread : ReadOnly action)
    (honly : FailsOnly (· ≠ .interrupted) action) : SurfacesCalls around t planned action :=
  surfaces_calm (Keeps.of_readOnly hread) honly

theorem surfaces_say (line : String) : SurfacesCalls around t planned (say line) :=
  surfaces_calm (keeps_say line) fun _ _ => OnlyFaults.ok ()

theorem result_eq_interrupted_iff {command : List String} {reply : ToolReply} :
    Tool.result command reply = .error .interrupted ↔ reply = .raised .interrupted := by
  cases reply with
  | exited code stdout stderr => exact iff_of_false nofun nofun
  | notStarted fault => cases command <;> exact iff_of_false nofun nofun
  | raised fault => simp [Tool.result]

theorem surfaces_run (command : List String) (directory : Option Path) :
    SurfacesCalls around t planned (Tool.run command directory) := by
  intro w ht
  have hperform := Tool.perform_run command directory around w
  have hran : Tells Event.IsNoError w
      { w with history := .ran ⟨command, directory⟩ w.tree :: w.history } :=
    Tells.note (by trivial) (by trivial) w
  refine ⟨?_, ?_⟩
  · rw [hperform]
    exact Passage.trans hran (Tells.changed (by trivial) _)
  · rw [EndsIn, hperform, result_eq_interrupted_iff, interrupted_cons (hran.chronicled ht),
      or_iff_right (not_callRaises_talk (.changed _) (by trivial) _), interrupted_cons ht, or_comm]
    rfl

end Build

namespace Pool

variable {α : Type} {sort : Event → Prop} {raises : Event → World → Prop} {around : Surroundings}
  {t : FileTree} {w : World}

theorem stop?_eq_some {e : Ended} {fault : Fault} (he : e ≠ .ok none) (h : stop? e = some fault) :
    fault = .interrupted ∧ e = .error .interrupted := by
  rcases e with cause | _ | r
  · cases cause <;> simp_all [stop?, Fault.isOrdinary]
  · exact absurd rfl he
  · cases h

theorem faultOf?_interrupted_iff {ended : List Ended} (h : .ok none ∉ ended) :
    faultOf? ended = some .interrupted ↔ .error .interrupted ∈ ended := by
  rw [faultOf?_eq]
  rcases hstop : ended.findSome? stop? with _ | fault
  · have hnone := List.findSome?_eq_none_iff.1 hstop
    refine iff_of_false (fun hfound => ?_) fun hmem => nomatch hnone _ hmem
    obtain ⟨e, he, herror⟩ := List.exists_of_findSome?_eq_some hfound
    rcases e with cause | r
    · cases herror
      exact nomatch hnone _ he
    · cases herror
  · obtain ⟨e, he, hfault⟩ := List.exists_of_findSome?_eq_some hstop
    obtain ⟨rfl, rfl⟩ := stop?_eq_some (fun hnone => h (hnone ▸ he)) hfault
    exact iff_of_true rfl he

variable {f : α → Action ToolResult}

/-- Tasks that surface interrupts are done one after the other, and some task ended in an interrupt
exactly when one was raised. -/
theorem surfaced_runAll (hstarted : ∀ i, sort (.started i)) (hcalm : ∀ i v, ¬ raises (.started i) v)
    (h : ∀ item, Surfaces sort raises t around (f item)) (tasks : List (Nat × α))
    (ht : Chronicled t w) :
    ∃ ended v, perform (runAll (fun item => some <$> f item) tasks) around w = (.ok ended, v) ∧
      Tells sort w v ∧ ended.map Prod.fst = tasks.map Prod.fst ∧
      .ok none ∉ ended.map (·.2.2) ∧
      (v.Interrupted raises t ↔
        w.Interrupted raises t ∨ .error .interrupted ∈ ended.map (·.2.2)) := by
  induction tasks generalizing w with
  | nil => exact ⟨[], w, rfl, Passage.refl w, rfl, by simp, by simp⟩
  | cons task rest ih =>
      obtain ⟨i, item⟩ := task
      have hnote := Tells.note (hstarted i) (by trivial) w
      have hnoted : World.Interrupted raises t { w with history := .started i :: w.history } ↔
          w.Interrupted raises t := or_iff_right (hcalm i _)
      obtain ⟨htells, hraised⟩ := (h item).map (f := some) _ (hnote.chronicled ht)
      rcases hperform : perform (some <$> f item) around
        { w with history := .started i :: w.history } with ⟨result, u⟩
      rw [hperform] at htells hraised
      have hresult : result ≠ .ok none := by
        have heq := perform_map some (f item) around { w with history := .started i :: w.history }
        rw [hperform] at heq
        obtain ⟨rfl, -⟩ := Prod.mk.inj heq
        rcases (perform (f item) around _).1 with _ | _ <;> nofun
      obtain ⟨ended, v, hall, htells', hplaces, hnone, hraised'⟩ :=
        ih (htells.chronicled (hnote.chronicled ht))
      refine ⟨(i, item, result) :: ended, v, ?_, ?_, by simp [hplaces], ?_, ?_⟩
      · rw [runAll, perform_bind_ok (perform_note _ _ _), perform_bind_ok (perform_outcome _ _ _)]
        rw [hperform, perform_bind_ok hall]
        rfl
      · exact Passage.trans hnote (Passage.trans htells htells')
      · simpa using ⟨hresult.symm, by simpa using hnone⟩
      · rw [hraised', hraised, hnoted, EndsIn, hperform]
        simp [or_assoc, eq_comm]

theorem surfaces_run (hstarted : ∀ i, sort (.started i)) (hcalm : ∀ i v, ¬ raises (.started i) v)
    (h : ∀ item, Surfaces sort raises t around (f item)) (items : List α) (jobs : Int) :
    Surfaces sort raises t around (run (fun item => some <$> f item) items jobs) := by
  intro w ht
  obtain ⟨schedule, hschedule⟩ : ∃ schedule, schedule =
      around.schedule w (workers jobs items.length) items.length := ⟨_, rfl⟩
  obtain ⟨ended, v, hall, htells, hplaces, hnone, hraised⟩ :=
    surfaced_runAll hstarted hcalm h (queue schedule items) ht
  rw [map_fst_queue] at hplaces
  have hnodup : (ended.map Prod.fst).Nodup :=
    hplaces ▸ (finishOrder_perm _ _).nodup_iff.2 List.nodup_range
  obtain ⟨taken, htaken, -, hlookup⟩ := exists_takenUp schedule id hnodup
  rw [List.map_id, List.map_id, Function.id_def, hplaces] at hlookup
  have hrun := perform_run_of_runAll jobs hschedule hall hlookup
  -- what is taken up is what has ended, in another order
  have hmem : ∀ e, e ∈ taken.map (·.2.2) ↔ e ∈ ended.map (·.2.2) := fun e =>
    (htaken.perm.map (·.2.2)).mem_iff
  rw [← hmem] at hnone hraised
  rw [← faultOf?_interrupted_iff hnone] at hraised
  cases hfault : faultOf? (taken.map (·.2.2)) with
  | none =>
      rw [hfault, Option.elim_none] at hrun
      exact ⟨by rwa [hrun], by rw [EndsIn, hrun, hraised, hfault]; simp⟩
  | some fault =>
      rw [hfault, Option.elim_some] at hrun
      exact ⟨by rwa [hrun], by rw [EndsIn, hrun, hraised, hfault]; simp⟩

end Pool

namespace Build

open StageResults

variable {α : Type} {around : Surroundings} {t : FileTree} {planned : Option (Plan × IrTools)}
  {plan : Plan} {tools : IrTools} {v w : World} {l : Linked}

theorem surfaces_pool {command : α → List String} {line : α → String} {verbose : Bool}
    {directory : Option Path} (items : List α) (jobs : Int) :
    SurfacesCalls around t planned (Pool.run (fun item => some <$> (do
      if verbose then say (line item)
      Tool.run (command item) directory)) items jobs) := by
  refine Pool.surfaces_run (fun _ => trivial) (fun _ _ => not_false) (fun item => ?_) items jobs
  cases verbose with
  | true => exact (surfaces_say _).bind fun _ => surfaces_run _ _
  | false => exact surfaces_run _ _

section Settling

theorem surfaces_detectTarget (clang workdir : Path) :
    SurfacesCalls around t planned (Compiler.detectTarget clang workdir) := by
  rw [Compiler.detectTarget_eq]
  refine (surfaces_calm ((keeps_makeDirectories _).bind fun _ => keeps_writeText _ _)
    ((refused_makeDirectories _).bind fun _ => refused_writeBytes _ _).ordinary).bind fun _ => ?_
  refine (surfaces_run _ _).bind fun r => ?_
  have hread : ReadOnly (Compiler.answerProbe workdir r) :=
    fun around w => congrArg Prod.snd (Compiler.perform_answerProbe workdir r around w)
  exact surfaces_silently hread (Compiler.ordinary_answerProbe workdir r)

theorem surfaces_platformDirectories (flag : String) :
    SurfacesCalls around t planned (Compiler.platformDirectories flag) :=
  (surfaces_run _ _).bind fun _ => .pure _

theorem surfaces_settle (o : Builder) (order : Order) :
    SurfacesCalls around t planned (settle o order) := by
  have hread : SurfacesCalls around t planned (read : Action Surroundings) :=
    surfaces_silently (fun _ _ => rfl) fun _ _ => OnlyFaults.ok _
  unfold settle
  refine (surfaces_silently (readOnly_absolute _) (Compiler.ordinary_absolute _)).bind
    fun workdir => ?_
  refine (surfaces_calm (keeps_makeDirectories _) (refused_makeDirectories _).ordinary).bind
    fun _ => ?_
  refine (surfaces_silently (Compiler.readOnly_findArchive _)
    (Compiler.ordinary_findArchive _)).bind fun archive => ?_
  refine (surfaces_silently (o.finder.readOnly_locate _ _) (o.finder.ordinary_locate _ _)).bind
    fun clang => ?_
  refine (surfaces_silently (o.finder.readOnly_locate _ _) (o.finder.ordinary_locate _ _)).bind
    fun clangpp => ?_
  refine (surfaces_detectTarget clang workdir).bind fun target => ?_
  refine ((surfaces_platformDirectories _).bind fun _ => .pure _).bind fun compileFlags => ?_
  refine ((surfaces_platformDirectories _).bind fun _ => .pure _).bind fun linkFlags => ?_
  refine hread.bind fun surroundings => ?_
  refine (surfaces_calm (keeps_jobCount _ _) (ordinary_jobCount _ _)).bind fun jobs => ?_
  refine Surfaces.ite (fun _ => ?_) fun _ => .pure _
  exact (Surfaces.forM fun _ _ => surfaces_say _).bind fun _ => .pure _

end Settling

section Stages

theorem tells_announcing (w : World) (plan : Plan) (stage : Stage) :
    Tells Event.IsTalk w (w.announcing plan stage) := by
  unfold World.announcing
  split
  · exact Tells.note (by trivial) (by trivial) w
  · exact Passage.refl w

theorem surfaces_announced {action : Action α} {stage : Stage}
    (h : SurfacesCalls around t planned action) :
    SurfacesCalls around t planned (announced plan stage action) := by
  unfold announced
  split
  · exact (surfaces_say _).bind fun _ => h
  · exact h

theorem tells_calling (w : World) (call : IrCall) : Tells Event.IsNoError w (w.calling call) :=
  Tells.note (by trivial) (by trivial) w

theorem interrupted_calling (ht : Chronicled t w) (call : IrCall) :
    (w.calling call).Interrupted (CallRaises around t (some (plan, tools))) t ↔
      IrInterrupts plan tools t w call ∨
        w.Interrupted (CallRaises around t (some (plan, tools))) t := by
  rw [World.calling, interrupted_cons ht]
  refine or_congr_left ?_
  constructor
  · rintro ⟨_, _, ⟨⟩, h⟩
    exact h
  · exact fun h => ⟨plan, tools, rfl, h⟩

theorem interrupted_asked (ht : Chronicled t w) (stage : Stage) (call : IrCall) :
    ((w.announcing plan stage).calling call).Interrupted
        (CallRaises around t (some (plan, tools))) t ↔
      IrInterrupts plan tools t (w.announcing plan stage) call ∨
        w.Interrupted (CallRaises around t (some (plan, tools))) t := by
  have hannounced := tells_announcing w plan stage
  rw [interrupted_calling (hannounced.chronicled ht),
    hannounced.interrupted_iff not_callRaises_talk]

theorem linkAnswer_eq_interrupted_iff :
    linkAnswer plan tools w = .error .interrupted ↔ tools.link plan w = .error .interrupted := by
  unfold linkAnswer
  rcases tools.link plan w with fault | l
  · rfl
  · dsimp only
    split <;> exact iff_of_false nofun nofun

theorem surfaces_linkIr : SurfacesCalls around t (some (plan, tools))
    (announced plan .linkIr (Intermediate.link plan tools)) := by
  intro w ht
  have hperform := perform_linkIr plan tools around w
  refine ⟨?_, ?_⟩
  · rw [hperform]
    exact Passage.trans ((tells_announcing w plan _).mono fun _ => Event.IsTalk.isNoError)
      (tells_calling _ _)
  · rw [EndsIn, hperform, linkAnswer_eq_interrupted_iff, World.askedToLink,
      interrupted_asked ht, or_comm]
    rfl

theorem linkedIn_askedToLink (ht : Chronicled t w) (stage : Stage) :
    linkedIn plan tools t ((w.askedToLink plan).announcing plan stage).history =
      (tools.link plan (w.askedToLink plan)).toOption := by
  have hasked : linkedIn plan tools t (w.askedToLink plan).history =
      (tools.link plan (w.askedToLink plan)).toOption := by
    have hworld := ((tells_announcing w plan .linkIr).chronicled ht).world_eq
    change (tools.link plan (World.calling ⟨diskAfter t _, _⟩ _)).toOption = _
    rw [hworld]
    rfl
  unfold World.announcing
  split
  · exact hasked
  · exact hasked

theorem surfacesAt_optimize (ht : Chronicled t w)
    (hlinked : linkAnswer plan tools (w.askedToLink plan) = .ok l) :
    SurfacesAt Event.IsNoError (CallRaises around t (some (plan, tools))) t around
      (announced plan .optimize (Intermediate.optimize plan tools l)) (w.askedToLink plan) := by
  have hperform := perform_optimize plan tools around w l
  have hasked : Chronicled t (w.askedToLink plan) :=
    (tells_calling _ _).chronicled ((tells_announcing w plan _).chronicled ht)
  have hl : (tools.link plan (w.askedToLink plan)).toOption = some l := by
    unfold linkAnswer at hlinked
    rcases hanswer : tools.link plan (w.askedToLink plan) with fault | l'
    · rw [hanswer] at hlinked
      cases hlinked
    · rw [hanswer] at hlinked
      dsimp only at hlinked
      split at hlinked
      · exact congrArg some (Except.ok.inj hlinked)
      · cases hlinked
  refine ⟨?_, ?_⟩
  · rw [hperform]
    exact Passage.trans ((tells_announcing _ plan _).mono fun _ => Event.IsTalk.isNoError)
      (tells_calling _ _)
  · rw [EndsIn, hperform, World.askedToOptimize, interrupted_asked hasked, or_comm]
    refine or_congr_right ?_
    change (∃ l, linkedIn plan tools t _ = some l ∧ _) ↔ _
    rw [linkedIn_askedToLink ht, hl]
    simp

theorem surfaces_generate (defns : List Definition) :
    SurfacesCalls around t (some (plan, tools)) (Units.generate plan tools defns) := by
  have hcode : SurfacesCalls around t (some (plan, tools))
      (Intermediate.generate plan tools defns) := by
    intro w ht
    have hperform := Units.perform_codeGeneration plan tools defns around w
    have hcalled := tells_calling w (.generate defns)
    refine ⟨?_, ?_⟩
    · rw [hperform]
      exact Passage.trans hcalled (Tells.changed (by trivial) _)
    · rw [EndsIn, hperform, interrupted_cons (hcalled.chronicled ht),
        or_iff_right (not_callRaises_talk (.changed _) (by trivial) _), interrupted_calling ht,
        or_comm]
      rfl
  rw [Units.generate_eq]
  refine (surfaces_calm (Units.keeps_beforeCode around plan) (Units.ordinary_beforeCode plan)).bind
    fun before => hcode.bind fun _ => ?_
  exact surfaces_calm (Units.keeps_afterCode around plan before)
    (Units.ordinary_afterCode plan before)

theorem surfaces_compileEach (units : List Path) :
    SurfacesCalls around t planned (Units.compileEach plan units) := by
  refine (surfaces_pool units plan.jobs).bind fun run => ?_
  split
  · exact .throw nofun
  · exact .pure _

theorem surfaces_assemble (links : List String) :
    SurfacesCalls around t planned (NativeLibrary.assemble plan links) := by
  rw [NativeLibrary.assemble_eq]
  refine (surfaces_calm (NativeLibrary.keeps_prepare plan links)
    (NativeLibrary.ordinary_prepare plan links)).bind fun p => ?_
  refine (surfaces_pool p.pending plan.jobs).bind fun run => ?_
  split
  · exact .throw nofun
  · exact .pure _

theorem surfaces_executable (objects library : List Path) (links : List String) :
    SurfacesCalls around t planned (Executable.link plan objects library links) :=
  (surfaces_run _ _).bind fun _ => .ite (fun _ => .pure _) fun _ => .throw nofun

theorem surfaces_build : SurfacesCalls around t (some (plan, tools)) (build plan tools) := by
  rw [build_eq_inSequence]
  intro w ht
  refine (surfaces_linkIr w ht).bind ht fun l v hlink _ => ?_
  obtain ⟨hlinked, rfl⟩ := Prod.mk.inj ((perform_linkIr plan tools around w).symm.trans hlink)
  have hasked : Chronicled t (w.askedToLink plan) :=
    (tells_calling _ _).chronicled ((tells_announcing w plan _).chronicled ht)
  refine (surfacesAt_optimize ht hlinked).bind hasked fun defns v _ => ?_
  refine Surfaces.bind (surfaces_announced (surfaces_generate defns)) (fun units => ?_) v
  refine (surfaces_announced (surfaces_compileEach units)).bind fun objects => ?_
  refine (surfaces_announced (surfaces_assemble l.links)).bind fun library => ?_
  exact (surfaces_announced (surfaces_executable _ _ _)).bind fun _ => .pure _

end Stages

end Build

end StagedBuild
