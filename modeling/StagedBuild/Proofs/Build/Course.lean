import StagedBuild.Proofs.Build.Calls
import StagedBuild.Proofs.Build.Sequence
import StagedBuild.Proofs.Pool.Outputs
import StagedBuild.Proofs.Units.Frame

/-!
The courses that a build can take. A build goes through its stages in order and stops at the first
that fails; the steps that it has made by then are those of the stages before, and those that the
failing stage has made. On the disk units and their record come and go, then objects beside the
units are written.
-/

namespace StagedBuild

section Courses

open Action

namespace World

/-- The world after a stage may have been announced. -/
def announcing (w : World) (plan : Plan) (stage : Stage) : World :=
  if plan.verbose then
    { w with history := .printed .output (stage.announcement ++ "\n") :: w.history }
  else w

theorem quiet_announcing (w : World) (plan : Plan) (stage : Stage) :
    Quiet w (w.announcing plan stage) := by
  unfold announcing
  split
  · exact ⟨Silent.of_event rfl, rfl⟩
  · exact Passage.refl w

/-- The world in which the toolchain is asked to link. -/
def askedToLink (w : World) (plan : Plan) : World :=
  (w.announcing plan .linkIr).calling (.link plan.entry)

/-- The world in which the toolchain is asked to optimize what was linked. -/
def askedToOptimize (w : World) (plan : Plan) (l : Linked) : World :=
  ((w.askedToLink plan).announcing plan .optimize).calling (.optimize l.defns plan.mode)

theorem askedToLink_tree (w : World) (plan : Plan) : (w.askedToLink plan).tree = w.tree :=
  (w.quiet_announcing plan .linkIr).2

theorem askedToLink_steps (w : World) (plan : Plan) (around : Surroundings) :
    (w.askedToLink plan).steps around = w.steps around ++ [.ir (.link plan.entry)] := by
  rw [askedToLink, calling_steps, (w.quiet_announcing plan .linkIr).steps_eq around]

theorem askedToOptimize_tree (w : World) (plan : Plan) (l : Linked) :
    (w.askedToOptimize plan l).tree = w.tree :=
  ((w.askedToLink plan).quiet_announcing plan .optimize).2.trans (w.askedToLink_tree plan)

theorem askedToOptimize_steps (w : World) (plan : Plan) (l : Linked) (around : Surroundings) :
    (w.askedToOptimize plan l).steps around =
      w.steps around ++ [.ir (.link plan.entry), .ir (.optimize l.defns plan.mode)] := by
  rw [askedToOptimize, calling_steps,
    ((w.askedToLink plan).quiet_announcing plan .optimize).steps_eq around,
    askedToLink_steps, List.append_assoc]
  rfl

end World

namespace Build

/-- What the toolchain links, unless it leaves symbols open. -/
def linkAnswer (plan : Plan) (tools : IrTools) (w : World) : Except Fault Linked :=
  match tools.link plan w with
  | .ok l => if l.unresolved = [] then .ok l else .error (.build (.ofSymbols l.unresolved))
  | .error fault => .error fault

/-- The calls of the toolchain. -/
def irSteps (plan : Plan) (l : Linked) (defns : List Definition) : List Step :=
  [.ir (.link plan.entry), .ir (.optimize l.defns plan.mode), .ir (.generate defns)]

/-- The call that links the executable: the objects of the units stand in the order of the units,
and behind them those of the included sources in the order of the manifest. -/
def finalCall (plan : Plan) (units : List Path) (included : List NativeLibrary.Source)
    (links : List String) : Invocation :=
  ⟨Executable.command plan (units.map Path.objectPath)
    (included.map NativeLibrary.Source.objectPath) links, some plan.workdir⟩

section

variable (plan : Plan) (tools : IrTools) (around : Surroundings)

/-- The toolchain has linked, optimized, and generated code, and these are the units. -/
structure Generated (w : World) (l : Linked) (defns : List Definition) (units : List Path)
    (w' : World) : Prop where
  linked : linkAnswer plan tools (w.askedToLink plan) = .ok l
  optimized : tools.optimize plan l (w.askedToOptimize plan l) = .ok defns
  generated : perform (Units.generate plan tools defns) around
    ((w.askedToOptimize plan l).announcing plan .generate) = (.ok units, w')

/-- After the announcement of a stage there was one call for each item, and nothing else. -/
structure CalledEach {α : Type} (stage : Stage) (call : α → Invocation) (items : List α)
    (w : World) (answered : List (Pool.Answered α)) (w' : World) : Prop where
  ran : Pool.RanAll around call (w.announcing plan stage) answered w'
  items_perm : (answered.map Pool.Answered.item).Perm items

/-- All units are compiled. -/
structure UnitsCompiled (w : World) (l : Linked) (defns : List Definition) (units : List Path)
    (answered : List (Pool.Answered Path)) (w' : World) : Prop where
  called : ∃ v, Generated plan tools around w l defns units v ∧
    CalledEach plan around .compileUnits (unitCall plan) units v answered w'
  succeeded : ∀ a ∈ answered, a.reply.isSuccess = true

/-- All units are compiled, and the native library is ready for its compilers: what is pending are
the included sources that have no object. -/
structure LibraryPrepared (w : World) (l : Linked) (defns : List Definition) (units : List Path)
    (answered : List (Pool.Answered Path)) (p : NativeLibrary.Preparation) (w' : World) :
    Prop where
  prepared : ∃ v, UnitsCompiled plan tools around w l defns units answered v ∧
    perform (NativeLibrary.prepare plan l.links) around (v.announcing plan .compileLibrary) =
      (.ok p, w')
  pending : p.pending = p.included.filter (NativeLibrary.lacksObject around.directory w'.tree)

/-- All units and all pending sources are compiled. -/
structure LibraryCompiled (w : World) (l : Linked) (defns : List Definition) (units : List Path)
    (answered : List (Pool.Answered Path)) (p : NativeLibrary.Preparation)
    (compiled : List (Pool.Answered NativeLibrary.Source)) (w' : World) : Prop where
  called : ∃ v, LibraryPrepared plan tools around w l defns units answered p v ∧
    Pool.RanAll around (sourceCall plan) v compiled w'
  items_perm : (compiled.map Pool.Answered.item).Perm p.pending
  succeeded : ∀ a ∈ compiled, a.reply.isSuccess = true

/-- The steps of the units and of the sources. -/
def compileSteps (answered : List (Pool.Answered Path))
    (compiled : List (Pool.Answered NativeLibrary.Source)) : List Step :=
  answered.map (Pool.Answered.step (unitCall plan)) ++
    compiled.map (Pool.Answered.step (sourceCall plan))

/-- The courses of a build, each with its steps, its outcome, and the world that it leaves. A course
is named for the stage that it does not get past. -/
inductive Course (w : World) : List Step → Except Fault Result → World → Prop
  | linkIr {fault : Fault} :
      linkAnswer plan tools (w.askedToLink plan) = .error fault →
      Course w [.ir (.link plan.entry)] (.error fault) (w.askedToLink plan)
  | optimize {l : Linked} {fault : Fault} :
      linkAnswer plan tools (w.askedToLink plan) = .ok l →
      tools.optimize plan l (w.askedToOptimize plan l) = .error fault →
      Course w [.ir (.link plan.entry), .ir (.optimize l.defns plan.mode)] (.error fault)
        (w.askedToOptimize plan l)
  | generate {l : Linked} {defns : List Definition} {fault : Fault} {w' : World}
      {steps : List Step} :
      linkAnswer plan tools (w.askedToLink plan) = .ok l →
      tools.optimize plan l (w.askedToOptimize plan l) = .ok defns →
      perform (Units.generate plan tools defns) around
        ((w.askedToOptimize plan l).announcing plan .generate) = (.error fault, w') →
      steps <+: [.ir (.generate defns)] →
      w'.steps around = (w.askedToOptimize plan l).steps around ++ steps →
      Course w ([.ir (.link plan.entry), .ir (.optimize l.defns plan.mode)] ++ steps)
        (.error fault) w'
  | compileUnits {l : Linked} {defns : List Definition} {units : List Path} {v w' : World}
      {answered : List (Pool.Answered Path)} {fault : Fault} :
      Generated plan tools around w l defns units v →
      CalledEach plan around .compileUnits (unitCall plan) units v answered w' →
      FailsWith (unitCall plan) Units.compileFault answered fault →
      Course w (irSteps plan l defns ++ compileSteps plan answered []) (.error fault) w'
  | prepareLibrary {l : Linked} {defns : List Definition} {units : List Path} {v w' : World}
      {answered : List (Pool.Answered Path)} {fault : Fault} :
      UnitsCompiled plan tools around w l defns units answered v →
      perform (NativeLibrary.prepare plan l.links) around
        (v.announcing plan .compileLibrary) = (.error fault, w') →
      Course w (irSteps plan l defns ++ compileSteps plan answered []) (.error fault) w'
  | compileLibrary {l : Linked} {defns : List Definition} {units : List Path} {v w' : World}
      {answered : List (Pool.Answered Path)} {p : NativeLibrary.Preparation}
      {compiled : List (Pool.Answered NativeLibrary.Source)} {fault : Fault} :
      LibraryPrepared plan tools around w l defns units answered p v →
      Pool.RanAll around (sourceCall plan) v compiled w' →
      (compiled.map Pool.Answered.item).Perm p.pending →
      FailsWith (sourceCall plan) NativeLibrary.compileFault compiled fault →
      Course w (irSteps plan l defns ++ compileSteps plan answered compiled) (.error fault) w'
  | linkExecutable {l : Linked} {defns : List Definition} {units : List Path} {v w' : World}
      {answered : List (Pool.Answered Path)} {p : NativeLibrary.Preparation}
      {compiled : List (Pool.Answered NativeLibrary.Source)} {reply : ToolReply} {fault : Fault} :
      LibraryCompiled plan tools around w l defns units answered p compiled v →
      Ran around (finalCall plan units p.included l.links) (v.announcing plan .linkExecutable)
        reply w' →
      FailsWith (fun _ => finalCall plan units p.included l.links) (fun _ => Executable.linkFault)
        [⟨0, (), reply⟩] fault →
      Course w (irSteps plan l defns ++ compileSteps plan answered compiled ++
        [.tool (finalCall plan units p.included l.links) reply]) (.error fault) w'
  | finished {l : Linked} {defns : List Definition} {units : List Path} {v w' : World}
      {answered : List (Pool.Answered Path)} {p : NativeLibrary.Preparation}
      {compiled : List (Pool.Answered NativeLibrary.Source)} {reply : ToolReply} :
      LibraryCompiled plan tools around w l defns units answered p compiled v →
      Ran around (finalCall plan units p.included l.links) (v.announcing plan .linkExecutable)
        reply w' →
      reply.isSuccess = true →
      Course w (irSteps plan l defns ++ compileSteps plan answered compiled ++
        [.tool (finalCall plan units p.included l.links) reply])
        (.ok ⟨plan.outputPath, units, units.map Path.objectPath,
          ⟨plan.libraryDirectory, p.included.map NativeLibrary.Source.objectPath,
            p.pending.map NativeLibrary.Source.objectPath, p.removed⟩, Stage.all⟩) w'

end

end Build

end Courses

section Disks

open Action FileTree Disk NativeLibrary

namespace Units

/-- What code generation may touch: files that are named like units, and the record. -/
def CodePlace (cwd : Location) (workdir : Path) (q : Location) : Prop :=
  lastLetter q = some 'l' ∨ q = recordAt cwd workdir

/-- Where the objects of units go. -/
def ObjectPlace (base q : Location) : Prop :=
  ∃ way, IsUnitWay way ∧ q = base ++ objectWay way

theorem Call.sparing_codePlace {c : Call} (hcode : c.WritesOnlyUnits) :
    Sparing (CodePlace c.around.directory c.plan.workdir) c.before c.after := by
  refine Call.sparing hcode ?_ ?_ (.inr rfl)
  · intro v us v' _ _ q hq _
    exact .inl (lastLetter_of_placesOf hq)
  · intro way hunit _
    refine .inl ?_
    rw [lastLetter_append _ hunit.1]
    exact lastLetter_of_isUnitWay hunit

end Units

namespace Build

variable {plan : Plan} {tools : IrTools} {around : Surroundings} {w w' : World} {l : Linked}
  {defns : List Definition} {units : List Path} {answered : List (Pool.Answered Path)}

/-- The call of code generation in a build. -/
def codeCall (plan : Plan) (tools : IrTools) (around : Surroundings) (w : World) (l : Linked)
    (defns : List Definition) : Units.Call :=
  ⟨plan, tools, defns, around, (w.askedToOptimize plan l).announcing plan .generate⟩

theorem codeCall_before_tree (plan : Plan) (tools : IrTools) (around : Surroundings) (w : World)
    (l : Linked) (defns : List Definition) :
    (codeCall plan tools around w l defns).before.tree = w.tree :=
  ((w.askedToOptimize plan l).quiet_announcing plan .generate).2.trans
    (w.askedToOptimize_tree plan l)

theorem placeIn_unit {way : Location} (habsolute : plan.workdir.isAbsolute = true)
    (cwd : Location) (hunit : Units.IsUnitWay way) (hnames : ∀ s ∈ way, isEntryName s = true) :
    placeIn cwd plan (plan.workdir.descend way).objectPath =
      goalOf cwd plan.workdir ++ objectWay way := by
  rw [placeIn_objectPath_descend cwd plan plan.workdir hnames hunit.1,
    placeIn_of_absolute habsolute, goalOf_of_absolute habsolute cwd]

/-- A disk on which units have been generated, and the disk from before. -/
structure UnitsReady (around : Surroundings) (plan : Plan) (units : List Path)
    (t t' : FileTree) : Prop where
  wellFormed : t'.WellFormed
  directories : ∀ loc, t.isDirectory loc = true → t'.isDirectory loc = true
  leads : LeadsToDirectory plan.workdir t' around.directory
  units_eq : units = (Units.unitWays t' (goalOf around.directory plan.workdir)).map
    plan.workdir.descend
  spares : Spares (Units.CodePlace around.directory plan.workdir) t t'

namespace UnitsReady

variable {t t' : FileTree}

theorem exists_way (h : UnitsReady around plan units t t')
    (habsolute : plan.workdir.isAbsolute = true) {u : Path} (hu : u ∈ units) :
    ∃ way, Units.IsUnitWay way ∧ (∀ s ∈ way, isEntryName s = true) ∧
      u = plan.workdir.descend way ∧
      placeIn around.directory plan u.objectPath =
        goalOf around.directory plan.workdir ++ objectWay way := by
  rw [h.units_eq] at hu
  obtain ⟨way, hway, rfl⟩ := List.mem_map.1 hu
  obtain ⟨hunit, hocc⟩ := Units.mem_unitWays.1 hway
  have hnames := Units.entryNames_of_isOccupied h.wellFormed hocc
  exact ⟨way, hunit, hnames, rfl, placeIn_unit habsolute _ hunit hnames⟩

end UnitsReady

theorem Generated.unique {l' : Linked} {defns' : List Definition} {units' : List Path}
    {v v' : World}
    (h : Generated plan tools around w l defns units v)
    (h' : Generated plan tools around w l' defns' units' v') :
    l' = l ∧ defns' = defns ∧ units' = units ∧ v' = v := by
  obtain rfl : l' = l := Except.ok.inj (h'.linked.symm.trans h.linked)
  obtain rfl : defns' = defns := Except.ok.inj (h'.optimized.symm.trans h.optimized)
  have heq := h'.generated.symm.trans h.generated
  exact ⟨rfl, rfl, Except.ok.inj (congrArg Prod.fst heq), congrArg Prod.snd heq⟩

theorem Generated.after_codeCall (h : Generated plan tools around w l defns units w') :
    (codeCall plan tools around w l defns).after = w' :=
  congrArg Prod.snd h.generated

theorem Generated.outcome_codeCall (h : Generated plan tools around w l defns units w') :
    (codeCall plan tools around w l defns).outcome = .ok units :=
  congrArg Prod.fst h.generated

section Generated

variable (hcode : (codeCall plan tools around w l defns).WritesOnlyUnits)
  (hw : w.tree.WellFormed) (hcwd : w.tree.isDirectory around.directory = true)

include hcode hw hcwd

theorem sound_codeCall : (codeCall plan tools around w l defns).after.tree.WellFormed ∧
    ∀ loc, w.tree.isDirectory loc = true →
      (codeCall plan tools around w l defns).after.tree.isDirectory loc = true := by
  have hbefore := codeCall_before_tree plan tools around w l defns
  have hsound := Units.Call.sound_of_writesOnlyUnits hcode (hbefore ▸ hw) (hbefore ▸ hcwd)
  rwa [hbefore] at hsound

theorem Generated.ready (h : Generated plan tools around w l defns units w') :
    UnitsReady around plan units w.tree w'.tree := by
  have hbefore := codeCall_before_tree plan tools around w l defns
  have hafter := h.after_codeCall
  have hok := h.outcome_codeCall
  obtain ⟨hwf, hdirs⟩ := sound_codeCall hcode hw hcwd
  obtain ⟨hleads, hunits⟩ := Units.Call.units_of_ok hcode (hbefore ▸ hw) (hbefore ▸ hcwd) hok
  have hspares := Units.Call.sparing_codePlace hcode
  rw [Sparing, hbefore] at hspares
  rw [hafter] at hwf hdirs hleads hunits hspares
  exact ⟨hwf, hdirs, hleads, hunits, hspares⟩

variable (habsolute : plan.workdir.isAbsolute = true)

include habsolute

/-- Units that were compiled have their objects. Since the units were generated nothing else has
changed. -/
theorem UnitsCompiled.ready (h : UnitsCompiled plan tools around w l defns units answered w')
    (hdelivers : ∀ u ∈ units,
      Delivers around (unitCall plan u) (placeIn around.directory plan u.objectPath)) :
    ∃ t, UnitsReady around plan units w.tree t ∧ w'.tree.WellFormed ∧
      FilesChanged (Units.ObjectPlace (goalOf around.directory plan.workdir)) t w'.tree ∧
      ∀ u ∈ units, w'.tree.isFile (placeIn around.directory plan u.objectPath) = true := by
  obtain ⟨v, hgenerated, hran, hperm⟩ := h.called
  have hready := hgenerated.ready hcode hw hcwd
  have htree : (v.announcing plan .compileUnits).tree = v.tree :=
    (v.quiet_announcing plan .compileUnits).2
  have hitem : ∀ a ∈ answered, a.item ∈ units := fun a ha =>
    hperm.subset (List.mem_map_of_mem ha)
  obtain ⟨hwf, hchanged, hfiles, -⟩ := hran.delivered
    (fun u => placeIn around.directory plan u.objectPath)
    (fun a ha => hdelivers a.item (hitem a ha)) h.succeeded (htree ▸ hready.wellFormed)
  rw [htree] at hchanged
  refine ⟨v.tree, hready, hwf, hchanged.mono ?_, fun u hu => ?_⟩
  · rintro q ⟨a, ha, rfl⟩
    obtain ⟨way, hunit, -, -, hplace⟩ := hready.exists_way habsolute (hitem a ha)
    exact ⟨way, hunit, hplace⟩
  · obtain ⟨a, ha, rfl⟩ := List.mem_map.1 (hperm.symm.subset hu)
    exact hfiles a ha

end Generated

end Build

end Disks

end StagedBuild
