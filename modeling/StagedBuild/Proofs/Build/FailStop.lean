import StagedBuild.Proofs.Build.Course

/-!
Every build takes one of the courses, so no stage acts before all earlier stages have succeeded, and
a build that gives an executable has seen every tool end with zero.
-/

namespace StagedBuild.Build

open Action StageResults

section Stages

variable (plan : Plan) (tools : IrTools) (around : Surroundings)

theorem perform_announced {α : Type} (stage : Stage) (compute : Action α) (w : World) :
    perform (announced plan stage compute) around w =
      perform compute around (w.announcing plan stage) := by
  unfold announced World.announcing
  cases plan.verbose <;> rfl

theorem perform_linkIr (w : World) :
    perform (announced plan .linkIr (Intermediate.link plan tools)) around w =
      (linkAnswer plan tools (w.askedToLink plan), w.askedToLink plan) := by
  rw [perform_announced, Intermediate.link, perform_bind_ok (perform_note _ _ _),
    perform_bind_ok (perform_get _ _)]
  change perform (ofExcept id (tools.link plan (w.askedToLink plan)) >>= _) around
    (w.askedToLink plan) = _
  rw [perform_bind, perform_ofExcept_id]
  unfold linkAnswer
  rcases tools.link plan (w.askedToLink plan) with fault | l
  · rfl
  · by_cases hl : l.unresolved = [] <;> simp [hl, perform_map, Except.map]

theorem perform_optimize (w : World) (l : Linked) :
    perform (announced plan .optimize (Intermediate.optimize plan tools l)) around
        (w.askedToLink plan) =
      (tools.optimize plan l (w.askedToOptimize plan l), w.askedToOptimize plan l) := by
  rw [perform_announced, Intermediate.optimize, perform_bind_ok (perform_note _ _ _),
    perform_bind_ok (perform_get _ _), perform_ofExcept_id]
  rfl

/-- An action makes one call of the toolchain, unless it fails before. -/
def MakesOneCall {α : Type} (call : IrCall) (action : Action α) : Prop :=
  ∀ w, ∃ steps, (perform action around w).2.steps around = w.steps around ++ steps ∧
    (steps = [.ir call] ∨ steps = [] ∧ ∃ fault, (perform action around w).1 = .error fault)

namespace MakesOneCall

variable {around : Surroundings} {α β : Type} {call : IrCall}

theorem after_silent {action : Action α} {next : α → Action β} (h : Keeps around Silent action)
    (hnext : ∀ a, MakesOneCall around call (next a)) :
    MakesOneCall around call (action >>= next) := by
  intro w
  have hsteps := (h w).steps_eq around
  rcases hp : perform action around w with ⟨fault | a, w'⟩
  · rw [hp] at hsteps
    rw [perform_bind_error hp]
    exact ⟨[], by simpa using hsteps, .inr ⟨rfl, fault, rfl⟩⟩
  · rw [hp] at hsteps
    rw [perform_bind_ok hp, ← hsteps]
    exact hnext a w'

theorem of_note {next : Unit → Action β} (hnext : Keeps around Silent (next ())) :
    MakesOneCall around call (Action.note (.called call) >>= next) := by
  intro w
  refine ⟨[.ir call], ?_, .inl rfl⟩
  rw [perform_bind_ok (perform_note _ _ _)]
  exact (hnext (w.calling call)).steps_eq around

end MakesOneCall

theorem makesOneCall_generate (defns : List Definition) :
    MakesOneCall around (.generate defns) (Units.generate plan tools defns) := by
  have hstamps : Keeps around Silent (Units.stamps plan.workdir) :=
    Keeps.of_readOnly (Units.readOnly_stamps _)
  unfold Units.generate Intermediate.generate
  refine .after_silent (Disk.keeps_makeDirectories _) fun _ => ?_
  refine .after_silent (Units.keeps_removeRecorded _) fun _ => ?_
  refine .after_silent hstamps fun before => ?_
  rw [bind_assoc]
  refine .of_note ?_
  -- behind the call only the disk is changed
  rw [bind_assoc]
  refine Keeps.bind (Keeps.of_readOnly fun _ _ => rfl) fun w => ?_
  rw [bind_assoc]
  refine (Keeps.setTree fun w => Disk.AnyChange.changed w _).bind fun _ => ?_
  exact (Keeps.of_readOnly (ReadOnly.ofExcept _ _)).bind fun _ => hstamps.bind fun after =>
    (Units.keeps_writeRecord _ _).bind fun _ => Keeps.pure _

theorem perform_linkExecutable (unitObjects libraryObjects : List Path) (links : List String)
    (w : World) :
    ∃ reply w', Ran around
        ⟨Executable.command plan unitObjects libraryObjects links, some plan.workdir⟩
        (w.announcing plan .linkExecutable) reply w' ∧
      (reply.isSuccess = true ∧
          perform (announced plan .linkExecutable
            (Executable.link plan unitObjects libraryObjects links)) around w =
              (.ok plan.outputPath, w') ∨
        ∃ fault, FailsWith
            (fun _ => ⟨Executable.command plan unitObjects libraryObjects links,
              some plan.workdir⟩)
            (fun _ => Executable.linkFault) [⟨0, (), reply⟩] fault ∧
          perform (announced plan .linkExecutable
            (Executable.link plan unitObjects libraryObjects links)) around w =
              (.error fault, w')) := by
  obtain ⟨command, hcommand⟩ : ∃ command, command = Executable.command plan
      unitObjects libraryObjects links := ⟨_, rfl⟩
  have hne : command ≠ [] := by
    rw [hcommand]
    simp [Executable.command]
  obtain ⟨reply, hran, houtcome⟩ := Tool.ran_run command (some plan.workdir) around
    (w.announcing plan .linkExecutable)
  simp only [perform_announced, Executable.link, ← hcommand]
  refine ⟨reply, _, hran, ?_⟩
  rcases hraised : reply.raised? with _ | fault
  · obtain ⟨r, hr, hsuccess⟩ := Tool.exists_result hne hraised
    rw [perform_bind_ok (Prod.ext (houtcome.trans hr) rfl), ← hsuccess]
    by_cases hs : r.success = true
    · exact .inl ⟨hs, by simp [hs]⟩
    · have hfails : r.success = false := by simpa using hs
      refine .inr ⟨_, .inr ⟨by simp [hraised], _, List.mem_singleton.2 rfl, r, hr, hfails, rfl⟩, ?_⟩
      simp [hs]
  · refine .inr ⟨fault, .inl ⟨_, List.mem_singleton.2 rfl, hraised⟩, ?_⟩
    refine perform_bind_error (Prod.ext (houtcome.trans ?_) rfl)
    cases reply <;> simp_all [ToolReply.raised?, Tool.result]

end Stages

/-- A build takes one of the courses. -/
theorem build_takes_course (plan : Plan) (tools : IrTools) (around : Surroundings) (w : World) :
    ∃ steps, Course plan tools around w steps (perform (build plan tools) around w).1
      (perform (build plan tools) around w).2 := by
  rw [build_eq_inSequence, inSequence]
  rcases hl : linkAnswer plan tools (w.askedToLink plan) with fault | l
  · rw [perform_bind_error (by rw [perform_linkIr, hl])]
    exact ⟨_, .linkIr hl⟩
  rw [perform_bind_ok (by rw [perform_linkIr, hl])]
  rcases ho : tools.optimize plan l (w.askedToOptimize plan l) with fault | defns
  · rw [perform_bind_error (by rw [perform_optimize, ho])]
    exact ⟨_, .optimize hl ho⟩
  rw [perform_bind_ok (by rw [perform_optimize, ho])]
  obtain ⟨steps, hsteps, hone⟩ := makesOneCall_generate plan tools around defns
    ((w.askedToOptimize plan l).announcing plan .generate)
  rw [((w.askedToOptimize plan l).quiet_announcing plan .generate).steps_eq around] at hsteps
  rcases hg : perform (Units.generate plan tools defns) around
    ((w.askedToOptimize plan l).announcing plan .generate) with ⟨fault | units, w₃⟩
  · rw [perform_bind_error (by rw [perform_announced, hg])]
    rw [hg] at hsteps
    refine ⟨_, .generate hl ho hg ?_ hsteps⟩
    rcases hone with rfl | ⟨rfl, -⟩
    · exact List.prefix_rfl
    · exact List.nil_prefix
  have hgenerated : Generated plan tools around w l defns units w₃ := ⟨hl, ho, hg⟩
  rw [perform_bind_ok (by rw [perform_announced, hg])]
  obtain ⟨answered, w₄, hrun, hitems, ⟨hall, hunits⟩ | ⟨fault, hfails, hunits⟩⟩ :=
    perform_compileEach plan around units
      (w₃.announcing plan .compileUnits)
  swap
  · rw [perform_bind_error (by rw [perform_announced, hunits])]
    exact ⟨_, .compileUnits hgenerated ⟨hrun, hitems⟩ hfails⟩
  have hcompiled : UnitsCompiled plan tools around w l defns units answered w₄ :=
    ⟨⟨w₃, hgenerated, hrun, hitems⟩, hall⟩
  rw [perform_bind_ok (by rw [perform_announced, hunits])]
  rcases hp : perform (NativeLibrary.prepare plan l.links) around
    (w₄.announcing plan .compileLibrary) with ⟨fault | p, w₅⟩
  · rw [perform_bind_error (by
      rw [perform_announced, NativeLibrary.assemble_eq, perform_bind_error hp])]
    exact ⟨_, .prepareLibrary hcompiled hp⟩
  have hprepared : LibraryPrepared plan tools around w l defns units answered p w₅ :=
    ⟨⟨w₄, hcompiled, hp⟩, NativeLibrary.pending_of_prepare hp⟩
  obtain ⟨compiled, w₆, hran, hperm, ⟨hsources, hlibrary⟩ | ⟨fault, hfails, hlibrary⟩⟩ :=
    perform_compilePending plan around p w₅
  swap
  · rw [perform_bind_error (by
      rw [perform_announced, NativeLibrary.assemble_eq, perform_bind_ok hp, hlibrary])]
    exact ⟨_, .compileLibrary hprepared hran hperm hfails⟩
  have hready : LibraryCompiled plan tools around w l defns units answered p compiled w₆ :=
    ⟨⟨w₅, hprepared, hran⟩, hperm, hsources⟩
  rw [perform_bind_ok (by
    rw [perform_announced, NativeLibrary.assemble_eq, perform_bind_ok hp, hlibrary])]
  obtain ⟨reply, w₇, hfinal, ⟨hsuccess, houtput⟩ | ⟨fault, hfails, houtput⟩⟩ :=
    perform_linkExecutable plan around (units.map Path.objectPath)
      (p.included.map NativeLibrary.Source.objectPath) l.links w₆
  swap
  · rw [perform_bind_error houtput]
    exact ⟨_, .linkExecutable hready hfinal hfails⟩
  rw [perform_bind_ok houtput]
  exact ⟨_, .finished hready hfinal hsuccess⟩

section Steps

variable {plan : Plan} {tools : IrTools} {around : Surroundings} {w w' : World} {l : Linked}
  {defns : List Definition} {units : List Path} {answered : List (Pool.Answered Path)}
  {p : NativeLibrary.Preparation} {compiled : List (Pool.Answered NativeLibrary.Source)}

theorem CalledEach.steps_eq {α : Type} {stage : Stage} {call : α → Invocation} {items : List α}
    {answered : List (Pool.Answered α)}
    (h : CalledEach plan around stage call items w answered w') :
    w'.steps around = w.steps around ++ answered.map (Pool.Answered.step call) := by
  rw [h.ran.steps_eq, (w.quiet_announcing plan stage).steps_eq around]

theorem Generated.steps_eq (h : Generated plan tools around w l defns units w') :
    w'.steps around = w.steps around ++ irSteps plan l defns := by
  obtain ⟨steps, hsteps, hone⟩ := makesOneCall_generate plan tools around defns
    ((w.askedToOptimize plan l).announcing plan .generate)
  rw [h.generated, ((w.askedToOptimize plan l).quiet_announcing plan .generate).steps_eq around,
    World.askedToOptimize_steps] at hsteps
  rcases hone with rfl | ⟨-, fault, herror⟩
  · rw [hsteps, List.append_assoc]
    rfl
  · rw [h.generated] at herror
    cases herror

theorem UnitsCompiled.steps_eq (h : UnitsCompiled plan tools around w l defns units answered w') :
    w'.steps around =
      w.steps around ++ (irSteps plan l defns ++ compileSteps plan answered []) := by
  obtain ⟨v, hgenerated, hcalled⟩ := h.called
  rw [hcalled.steps_eq, hgenerated.steps_eq]
  simp [compileSteps]

theorem prepared_steps_eq {v : World} {out : Except Fault NativeLibrary.Preparation}
    (h : perform (NativeLibrary.prepare plan l.links) around (v.announcing plan .compileLibrary) =
      (out, w')) : w'.steps around = v.steps around := by
  have hsilent := NativeLibrary.silent_prepare around plan l.links
    (v.announcing plan .compileLibrary)
  rw [h] at hsilent
  rw [hsilent.steps_eq around, (v.quiet_announcing plan .compileLibrary).steps_eq around]

theorem LibraryPrepared.steps_eq
    (h : LibraryPrepared plan tools around w l defns units answered p w') :
    w'.steps around =
      w.steps around ++ (irSteps plan l defns ++ compileSteps plan answered []) := by
  obtain ⟨v, hunits, hprepared⟩ := h.prepared
  rw [prepared_steps_eq hprepared, hunits.steps_eq]

theorem LibraryCompiled.steps_eq
    (h : LibraryCompiled plan tools around w l defns units answered p compiled w') :
    w'.steps around =
      w.steps around ++ (irSteps plan l defns ++ compileSteps plan answered compiled) := by
  obtain ⟨v, hprepared, hran⟩ := h.called
  rw [hran.steps_eq, hprepared.steps_eq]
  simp [compileSteps]

theorem Course.steps_eq {steps : List Step} {outcome : Except Fault Result}
    (h : Course plan tools around w steps outcome w') :
    w'.steps around = w.steps around ++ steps := by
  cases h with
  | linkIr _ => exact w.askedToLink_steps plan around
  | optimize _ _ => exact w.askedToOptimize_steps plan _ around
  | generate _ _ _ _ hsteps =>
      rw [hsteps, World.askedToOptimize_steps, List.append_assoc]
  | compileUnits hgenerated hcalled _ =>
      rw [hcalled.steps_eq, hgenerated.steps_eq]
      simp [compileSteps]
  | prepareLibrary hunits hprepare => rw [prepared_steps_eq hprepare, hunits.steps_eq]
  | compileLibrary hprepared hran _ _ =>
      rw [hran.steps_eq, hprepared.steps_eq]
      simp [compileSteps]
  | linkExecutable hlibrary hran _ =>
      rw [hran.steps_eq, (World.quiet_announcing _ plan .linkExecutable).steps_eq around,
        hlibrary.steps_eq, List.append_assoc]
  | finished hlibrary hran _ =>
      rw [hran.steps_eq, (World.quiet_announcing _ plan .linkExecutable).steps_eq around,
        hlibrary.steps_eq, List.append_assoc]

theorem UnitsCompiled.items_perm (h : UnitsCompiled plan tools around w l defns units answered w') :
    (answered.map Pool.Answered.item).Perm units := by
  obtain ⟨_, _, hcalled⟩ := h.called
  exact hcalled.items_perm

theorem UnitsCompiled.linked (h : UnitsCompiled plan tools around w l defns units answered w') :
    linkAnswer plan tools (w.askedToLink plan) = .ok l := by
  obtain ⟨_, hgenerated, _⟩ := h.called
  exact hgenerated.linked

theorem LibraryPrepared.unitsCompiled
    (h : LibraryPrepared plan tools around w l defns units answered p w') :
    ∃ v, UnitsCompiled plan tools around w l defns units answered v := by
  obtain ⟨v, hcompiled, _⟩ := h.prepared
  exact ⟨v, hcompiled⟩

theorem LibraryPrepared.linked
    (h : LibraryPrepared plan tools around w l defns units answered p w') :
    linkAnswer plan tools (w.askedToLink plan) = .ok l := by
  obtain ⟨_, hcompiled⟩ := h.unitsCompiled
  exact hcompiled.linked

theorem LibraryCompiled.unitsCompiled
    (h : LibraryCompiled plan tools around w l defns units answered p compiled w') :
    ∃ v, UnitsCompiled plan tools around w l defns units answered v := by
  obtain ⟨_, hprepared, _⟩ := h.called
  exact hprepared.unitsCompiled

theorem LibraryCompiled.linked
    (h : LibraryCompiled plan tools around w l defns units answered p compiled w') :
    linkAnswer plan tools (w.askedToLink plan) = .ok l := by
  obtain ⟨_, hprepared, _⟩ := h.called
  exact hprepared.linked

/-- The steps of a build that gets to its end: the toolchain links, optimizes and generates code,
then there is one call for each unit, one for each pending source, and the final link. -/
def IsWhole (plan : Plan) (steps : List Step) : Prop :=
  ∃ (l : Linked) (defns : List Definition) (units : List Path)
    (answered : List (Pool.Answered Path)) (p : NativeLibrary.Preparation)
    (compiled : List (Pool.Answered NativeLibrary.Source)) (reply : ToolReply),
    (answered.map Pool.Answered.item).Perm units ∧
    (compiled.map Pool.Answered.item).Perm p.pending ∧ p.pending.Sublist p.included ∧
    steps = irSteps plan l defns ++ compileSteps plan answered compiled ++
      [.tool (finalCall plan units p.included l.links) reply]

theorem LibraryPrepared.pending_sublist
    (h : LibraryPrepared plan tools around w l defns units answered p w') :
    p.pending.Sublist p.included := by
  rw [h.pending]
  exact List.filter_sublist

theorem LibraryCompiled.isWhole
    (h : LibraryCompiled plan tools around w l defns units answered p compiled w')
    (reply : ToolReply) :
    IsWhole plan (irSteps plan l defns ++ compileSteps plan answered compiled ++
      [.tool (finalCall plan units p.included l.links) reply]) := by
  obtain ⟨_, hprepared, _⟩ := h.called
  obtain ⟨_, hunits⟩ := hprepared.unitsCompiled
  exact ⟨l, defns, units, answered, p, compiled, reply, hunits.items_perm, h.items_perm,
    hprepared.pending_sublist, rfl⟩

theorem Course.isWhole_prefix {steps : List Step} {outcome : Except Fault Result}
    (h : Course plan tools around w steps outcome w') :
    ∃ whole, IsWhole plan whole ∧ steps <+: whole := by
  -- what a build leaves out could have been anything that fits
  have hunits : ∀ l defns units answered, (answered.map Pool.Answered.item).Perm units →
      ∃ whole, IsWhole plan whole ∧
        irSteps plan l defns ++ compileSteps plan answered [] <+: whole :=
    fun l defns units answered hperm => ⟨_, ⟨l, defns, units, answered, ⟨[], [], []⟩, [],
      .exited 0 [] [], hperm, .rfl, .slnil, rfl⟩, List.prefix_append _ _⟩
  have hir : ∀ l defns, ∃ whole, IsWhole plan whole ∧ irSteps plan l defns <+: whole := by
    intro l defns
    obtain ⟨whole, hwhole, hprefix⟩ := hunits l defns [] [] .rfl
    exact ⟨whole, hwhole, .trans (List.prefix_append _ _) hprefix⟩
  cases h with
  | linkIr _ =>
      obtain ⟨whole, hwhole, hprefix⟩ := hir (.ofLists [] [] []) []
      exact ⟨whole, hwhole, .trans ⟨_, rfl⟩ hprefix⟩
  | @optimize l _ _ _ =>
      obtain ⟨whole, hwhole, hprefix⟩ := hir l []
      exact ⟨whole, hwhole, .trans ⟨_, rfl⟩ hprefix⟩
  | @generate l defns _ _ steps _ _ _ hsteps _ =>
      obtain ⟨whole, hwhole, hprefix⟩ := hir l defns
      exact ⟨whole, hwhole, .trans ((List.prefix_append_right_inj _).2 hsteps) hprefix⟩
  | compileUnits hgenerated hcalled _ => exact hunits _ _ _ _ hcalled.items_perm
  | prepareLibrary hcompiled _ => exact hunits _ _ _ _ hcompiled.items_perm
  | @compileLibrary l defns units _ _ answered p compiled _ hprepared hran hperm _ =>
      obtain ⟨_, hcompiled⟩ := hprepared.unitsCompiled
      exact ⟨_, ⟨l, defns, units, answered, p, compiled, .exited 0 [] [], hcompiled.items_perm,
        hperm, hprepared.pending_sublist, rfl⟩, List.prefix_append _ _⟩
  | linkExecutable hlibrary _ _ => exact ⟨_, hlibrary.isWhole _, List.prefix_rfl⟩
  | finished hlibrary _ _ => exact ⟨_, hlibrary.isWhole _, List.prefix_rfl⟩

theorem ofSymbols_sorted {symbols : List String} (h : symbols.Nodup) :
    ∃ sorted, BuildFault.ofSymbols symbols = .unresolved sorted ∧ sorted.Perm symbols ∧
      sorted.Pairwise (· < ·) := by
  have hperm := List.mergeSort_perm symbols fun a b => decide (a ≤ b)
  refine ⟨_, rfl, hperm, ?_⟩
  have hle : (symbols.mergeSort fun a b => decide (a ≤ b)).Pairwise fun a b =>
      decide (a ≤ b) = true :=
    List.pairwise_mergeSort
      (fun a b c hab hbc => by
        simpa using String.le_trans (by simpa using hab) (by simpa using hbc))
      (fun a b => by simpa using String.le_total a b) symbols
  exact (hle.and (hperm.nodup_iff.2 h)).imp fun ⟨hle, hne⟩ =>
    Std.lt_of_le_of_ne (of_decide_eq_true hle) hne

theorem Course.unresolved {steps : List Step} {outcome : Except Fault Result}
    (h : Course plan tools around w steps outcome w')
    (hlink : tools.link plan (w.askedToLink plan) = .ok l) (hopen : l.unresolved ≠ []) :
    steps = [.ir (.link plan.entry)] ∧ w'.tree = w.tree ∧
      outcome = .error (.build (.ofSymbols l.unresolved)) := by
  have hanswer : linkAnswer plan tools (w.askedToLink plan) =
      .error (.build (.ofSymbols l.unresolved)) := by
    simp [linkAnswer, hlink, hopen]
  have hnot : ∀ l', linkAnswer plan tools (w.askedToLink plan) ≠ .ok l' := by
    intro l'
    rw [hanswer]
    simp
  cases h with
  | linkIr herror =>
      rw [hanswer] at herror
      exact ⟨rfl, w.askedToLink_tree plan, by rw [← Except.error.inj herror]⟩
  | optimize hok _ => exact absurd hok (hnot _)
  | generate hok _ _ _ _ => exact absurd hok (hnot _)
  | compileUnits hgenerated _ _ => exact absurd hgenerated.linked (hnot _)
  | prepareLibrary hcompiled _ => exact absurd hcompiled.linked (hnot _)
  | compileLibrary hprepared _ _ _ => exact absurd hprepared.linked (hnot _)
  | linkExecutable hlibrary _ _ => exact absurd hlibrary.linked (hnot _)
  | finished hlibrary _ _ => exact absurd hlibrary.linked (hnot _)

theorem Course.succeeded {steps : List Step} {r : Result}
    (h : Course plan tools around w steps (.ok r) w') :
    r.output = plan.outputPath ∧
      ∀ call reply, .tool call reply ∈ steps → reply.isSuccess = true := by
  cases h with
  | finished hlibrary _ hsuccess =>
      obtain ⟨_, hprepared, _⟩ := hlibrary.called
      obtain ⟨_, hcompiled⟩ := hprepared.unitsCompiled
      refine ⟨rfl, fun call reply hmem => ?_⟩
      simp only [irSteps, compileSteps, List.mem_append, List.mem_cons, List.mem_map,
        List.not_mem_nil, or_false, reduceCtorEq, false_or, Pool.Answered.step,
        Step.tool.injEq] at hmem
      rcases hmem with (⟨a, ha, rfl, rfl⟩ | ⟨a, ha, rfl, rfl⟩) | ⟨rfl, rfl⟩
      · exact hcompiled.succeeded a ha
      · exact hlibrary.succeeded a ha
      · exact hsuccess

end Steps

end StagedBuild.Build
