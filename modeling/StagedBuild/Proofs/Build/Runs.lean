import StagedBuild.Proofs.Build.Settling

/-!
Runs of the program one after the other in one work directory: plans are settled and builds are
made, and each may fail anywhere. What the user keeps there stays as it is, and so does everything
outside.
-/

namespace StagedBuild.Build

open Action FileTree Disk NativeLibrary Manifest

/-- What a run does: it settles a plan, or it builds. -/
inductive Task where
  | settle (o : Builder) (order : Order)
  | build (plan : Plan) (tools : IrTools)

/-- A run: what it does, in which surroundings, and the world before. -/
structure Run where
  task : Task
  around : Surroundings
  before : World

variable {workdir : Path} {touched : Location → Prop} {w w' : World} {r : Run} {runs : List Run}

namespace Run

/-- The world that a run leaves. -/
def after (r : Run) : World :=
  match r.task with
  | .settle o order => (perform (settle o order) r.around r.before).2
  | .build plan tools => (perform (build plan tools) r.around r.before).2

theorem after_of_build {plan : Plan} {tools : IrTools} (htask : r.task = .build plan tools) :
    r.after = (perform (build plan tools) r.around r.before).2 := by
  rw [after, htask]

/-- A run is in a work directory, which a build is given from the root (`Contained.absolute`). Its
tools and its toolchain write only what they are there for, and the archive of a build ships no
marker together with a manifest (`ArchiveInOrder`). -/
inductive IsIn (workdir : Path) : Run → Prop
  | settle {o : Builder} {order : Order} {around : Surroundings} {before : World} :
      before.tree.isDirectory around.directory = true →
      goalOf around.directory order.workdir = goalOf [] workdir → ProbesContained around →
      IsIn workdir ⟨.settle o order, around, before⟩
  | build {plan : Plan} {tools : IrTools} {around : Surroundings} {before : World} :
      plan.workdir = workdir → Contained plan tools around before →
      ArchiveInOrder plan tools around before → IsIn workdir ⟨.build plan tools, around, before⟩

/-- What may be touched in a run: the files of the probe, or what a build may touch. -/
inductive MayTouch (workdir : Path) : Run → Location → Prop
  | settle {o : Builder} {order : Order} {around : Surroundings} {before : World} {q : Location} :
      IsProbe workdir q → MayTouch workdir ⟨.settle o order, around, before⟩ q
  | build {plan : Plan} {tools : IrTools} {around : Surroundings} {before : World}
      {q : Location} : Build.MayTouch plan tools around before q →
      MayTouch workdir ⟨.build plan tools, around, before⟩ q

/-- The toolchain of a run wrote the file at a location. -/
def Wrote (r : Run) (q : Location) : Prop :=
  ∃ plan tools l defns, r.task = .build plan tools ∧
    linkAnswer plan tools (r.before.askedToLink plan) = .ok l ∧
    tools.optimize plan l (r.before.askedToOptimize plan l) = .ok defns ∧
    (codeCall plan tools r.around r.before l defns).Wrote q

/-- If a run is a build that gets past code generation, it calls the compiler for a unit. -/
def Compiles (r : Run) (way : Location) : Prop :=
  ∀ plan tools l defns units v, r.task = .build plan tools →
    Generated plan tools r.around r.before l defns units v →
    ∃ steps reply, r.after.steps r.around = r.before.steps r.around ++ steps ∧
      .tool (unitCall plan (plan.workdir.descend way)) reply ∈ steps

end Run

/-- Runs in one work directory that lead from one world to another, the latest first. -/
inductive History (workdir : Path) (w : World) : List Run → World → Prop
  | nil : History workdir w [] w
  | cons {r : Run} {runs : List Run} :
      History workdir w runs r.before → r.IsIn workdir → History workdir w (r :: runs) r.after

theorem frames_of_run (hin : r.IsIn workdir) (hmore : ∀ q, r.MayTouch workdir q → touched q)
    (hw : r.before.tree.WellFormed) : Frames workdir touched r.before r.after := by
  cases hin with
  | @settle o order around before hcwd hgoal hcontained =>
      have hnames : ∀ s ∈ around.directory, isEntryName s = true :=
        hw.named _ (isOccupied_of_isDirectory hcwd)
      exact frames_settle hcontained (fun q hq => hmore q (.settle hq)) o order hnames hgoal before
  | @build plan tools around before hplan hcontained harchive =>
      subst hplan
      exact frames_build hcontained (fun q hq => hmore q (.build hq)) harchive hw

theorem History.frames (hist : History workdir w runs w')
    (hmore : ∀ r ∈ runs, ∀ q, r.MayTouch workdir q → touched q) (hw : w.tree.WellFormed)
    (horderly : Orderly workdir touched w.tree) :
    w'.tree.WellFormed ∧ Spares touched w.tree w'.tree ∧ Orderly workdir touched w'.tree := by
  induction hist with
  | nil => exact ⟨hw, .refl _ _, horderly⟩
  | @cons r runs _ hin ih =>
      obtain ⟨hwf, hspares, horderly'⟩ := ih fun e he => hmore e (List.mem_cons_of_mem _ he)
      obtain ⟨hwf', -, hspares', horderly''⟩ :=
        frames_of_run hin (hmore r (by simp)) hwf hwf horderly'
      exact ⟨hwf', hspares.trans hspares', horderly''⟩

theorem History.of_mem (hist : History workdir w runs w') (hr : r ∈ runs) :
    r.IsIn workdir ∧ ∃ earlier, History workdir w earlier r.before ∧ ∀ e ∈ earlier, e ∈ runs := by
  induction hist with
  | nil => cases hr
  | @cons last runs hist hin ih =>
      rcases List.mem_cons.1 hr with rfl | hr
      · exact ⟨hin, runs, hist, fun e he => List.mem_cons_of_mem _ he⟩
      · obtain ⟨hin', earlier, hearlier, hsub⟩ := ih hr
        exact ⟨hin', earlier, hearlier, fun e he => List.mem_cons_of_mem _ (hsub e he)⟩

theorem orderly_of_fresh {t : FileTree} (hrecord : t.isFile (Units.recordAt [] workdir) = false)
    (hmanifest : t.isFile (fileAt (libraryAt workdir)) = false) : Orderly workdir touched t where
  trusted := .of_scanned fun f hf => by
    rw [goalOf_lib] at hf
    rw [isFile_iff.2 ⟨f, hf⟩] at hmanifest
    cases hmanifest
  recorded := .of_not_isFile hrecord

theorem Run.MayTouch.isBelow {q : Location} (hin : r.IsIn workdir) (h : r.MayTouch workdir q) :
    goalOf [] workdir <+: q := by
  cases h with
  | settle hprobe =>
      rcases hprobe with rfl | rfl <;> exact List.prefix_append _ _
  | build htouch =>
      cases hin with
      | build hplan _ _ => exact hplan ▸ htouch.isBelow

/-- A unit beside the library is touched only when the toolchain writes it. -/
theorem not_mayTouch_unit {way : Location} (hin : r.IsIn workdir) (hunit : Units.IsUnitWay way)
    (hbeside : ¬ ["lib"] <+: way) (hnot : ¬ r.Wrote (goalOf [] workdir ++ way)) :
    ¬ r.MayTouch workdir (goalOf [] workdir ++ way) := by
  have hletter := lastLetter_of_isUnitWay hunit
  intro h
  generalize hq : goalOf [] workdir ++ way = q at h
  cases h with
  | settle hprobe =>
      rcases hprobe with rfl | rfl <;>
        · rw [List.append_cancel_left hq] at hletter
          exact absurd hletter (by decide)
  | @build plan tools around before _ htouch =>
      cases hin with
      | build hplan _ _ =>
          subst hplan
          cases htouch with
          | library rest =>
              rw [libraryAt, List.append_assoc] at hq
              exact hbeside ⟨rest, (List.append_cancel_left hq).symm⟩
          | executable =>
              rw [List.append_cancel_left hq] at hletter
              exact absurd hletter (by decide)
          | record =>
              rw [List.append_cancel_left hq] at hletter
              exact absurd hletter (by decide)
          | object _ _ =>
              rw [List.append_cancel_left hq, lastLetter_objectWay] at hletter
              exact absurd hletter (by decide)
          | unit hlinked hoptimized _ hwrote =>
              refine hnot ⟨_, _, _, _, rfl, hlinked, hoptimized, ?_⟩
              rwa [hq]

section Compiling

variable {plan : Plan} {tools : IrTools} {around : Surroundings} {l : Linked}
  {defns : List Definition} {units : List Path} {v : World}

theorem Course.exists_unitStep {steps : List Step} {outcome : Except Fault Result} {u : Path}
    (h : Course plan tools around w steps outcome w')
    (hgenerated : Generated plan tools around w l defns units v) (hu : u ∈ units) :
    ∃ reply, .tool (unitCall plan u) reply ∈ steps := by
  have hcalled : ∀ {answered : List (Pool.Answered Path)},
      (answered.map Pool.Answered.item).Perm units →
      ∃ reply, .tool (unitCall plan u) reply ∈
        answered.map (Pool.Answered.step (unitCall plan)) := by
    intro answered hperm
    obtain ⟨a, ha, rfl⟩ := List.mem_map.1 (hperm.symm.subset hu)
    exact ⟨a.reply, List.mem_map.2 ⟨a, ha, rfl⟩⟩
  have hcompiled : ∀ {l' : Linked} {defns' : List Definition} {units' : List Path} {v' : World}
      {answered : List (Pool.Answered Path)},
      UnitsCompiled plan tools around w l' defns' units' answered v' →
      ∃ reply, .tool (unitCall plan u) reply ∈
        answered.map (Pool.Answered.step (unitCall plan)) := by
    intro l' defns' units' v' answered h'
    obtain ⟨_, hgenerated', hcalled'⟩ := h'.called
    obtain ⟨-, -, rfl, -⟩ := hgenerated.unique hgenerated'
    exact hcalled hcalled'.items_perm
  cases h with
  | linkIr hfault => cases hfault.symm.trans hgenerated.linked
  | optimize hlinked hfault =>
      cases hlinked.symm.trans hgenerated.linked
      cases hfault.symm.trans hgenerated.optimized
  | generate hlinked hoptimized hfault _ _ =>
      cases hlinked.symm.trans hgenerated.linked
      cases hoptimized.symm.trans hgenerated.optimized
      cases congrArg Prod.fst (hfault.symm.trans hgenerated.generated)
  | compileUnits hgenerated' hcalled' _ =>
      obtain ⟨-, -, rfl, -⟩ := hgenerated.unique hgenerated'
      obtain ⟨reply, hmem⟩ := hcalled hcalled'.items_perm
      exact ⟨reply, by simp [compileSteps, hmem]⟩
  | prepareLibrary h' _ =>
      obtain ⟨reply, hmem⟩ := hcompiled h'
      exact ⟨reply, by simp [compileSteps, hmem]⟩
  | compileLibrary hprepared _ _ _ =>
      obtain ⟨_, h'⟩ := hprepared.unitsCompiled
      obtain ⟨reply, hmem⟩ := hcompiled h'
      exact ⟨reply, by simp [compileSteps, hmem]⟩
  | linkExecutable hlibrary _ _ =>
      obtain ⟨_, h'⟩ := hlibrary.unitsCompiled
      obtain ⟨reply, hmem⟩ := hcompiled h'
      exact ⟨reply, by simp [compileSteps, hmem]⟩
  | finished hlibrary _ _ =>
      obtain ⟨_, h'⟩ := hlibrary.unitsCompiled
      obtain ⟨reply, hmem⟩ := hcompiled h'
      exact ⟨reply, by simp [compileSteps, hmem]⟩

end Compiling

theorem Run.compiles_of_spared {way : Location} (hin : r.IsIn workdir)
    (hmore : ∀ q, r.MayTouch workdir q → touched q) (hw : r.before.tree.WellFormed)
    (horderly : Orderly workdir touched r.before.tree) (hunit : Units.IsUnitWay way)
    (hspared : ¬ touched (goalOf [] workdir ++ way))
    (hfile : r.before.tree.isFile (goalOf [] workdir ++ way) = true) : r.Compiles way := by
  cases hin with
  | settle _ _ _ =>
      intro _ _ _ _ _ _ htask
      cases htask
  | @build plan tools around before hplan hcontained _ =>
      subst hplan
      intro plan' tools' l defns units v htask hgenerated
      obtain ⟨rfl, rfl⟩ : plan = plan' ∧ tools = tools' := by
        cases htask
        exact ⟨rfl, rfl⟩
      have hafter := hgenerated.after_codeCall
      obtain ⟨-, -, hspares, -⟩ := frames_codeCall hcontained (fun q hq => hmore q (.build hq))
        hgenerated.linked hgenerated.optimized hw horderly
      rw [hafter] at hspares
      have hready := hgenerated.ready
        (hcontained.code l defns hgenerated.linked hgenerated.optimized) hw hcontained.directory
      have hocc : v.tree.isOccupied (goalOf [] plan.workdir ++ way) = true :=
        isOccupied_of_isFile ((hspares.isFile_eq hspared).trans hfile)
      have hu : plan.workdir.descend way ∈ units := by
        rw [hready.units_eq, hcontained.goalOf_workdir]
        exact List.mem_map_of_mem (Units.mem_unitWays.2 ⟨hunit, hocc⟩)
      obtain ⟨steps, hcourse⟩ := build_takes_course plan tools around before
      obtain ⟨reply, hmem⟩ := hcourse.exists_unitStep hgenerated hu
      exact ⟨steps, reply, hcourse.steps_eq, hmem⟩

/-- Runs in one work directory, which builds are given from the root, keep the files of the user
however they end. Outside the work directory no file comes, goes or changes. Inside, this holds of
every file but those of the library, the executable, the record, the probe, the objects of units,
and the units that the toolchain writes. A unit that the toolchain never writes is compiled by every
build that gets so far, and stays as it is. -/
theorem history_keeps_files (hist : History workdir w runs w') (hw : w.tree.WellFormed)
    (hrecord : w.tree.isFile (Units.recordAt [] workdir) = false)
    (hmanifest : w.tree.isFile (fileAt (libraryAt workdir)) = false) :
    (∀ q, ¬ goalOf [] workdir <+: q → w'.tree.file? q = w.tree.file? q) ∧
      (∀ q, (∀ r ∈ runs, ¬ r.MayTouch workdir q) → w'.tree.file? q = w.tree.file? q) ∧
      ∀ way, Units.IsUnitWay way → ¬ ["lib"] <+: way →
        (∀ r ∈ runs, ¬ r.Wrote (goalOf [] workdir ++ way)) →
        w'.tree.file? (goalOf [] workdir ++ way) = w.tree.file? (goalOf [] workdir ++ way) ∧
          (w.tree.isFile (goalOf [] workdir ++ way) = true → ∀ r ∈ runs, r.Compiles way) := by
  have hmore : ∀ r ∈ runs, ∀ q, r.MayTouch workdir q → ∃ r ∈ runs, r.MayTouch workdir q :=
    fun r hr q hq => ⟨r, hr, hq⟩
  have horderly : Orderly workdir (fun q => ∃ r ∈ runs, r.MayTouch workdir q) w.tree :=
    orderly_of_fresh hrecord hmanifest
  obtain ⟨-, hspares, -⟩ := hist.frames hmore hw horderly
  have hkept : ∀ q, (∀ r ∈ runs, ¬ r.MayTouch workdir q) → w'.tree.file? q = w.tree.file? q :=
    fun q hq => hspares.file?_eq fun ⟨r, hr, htouch⟩ => hq r hr htouch
  refine ⟨fun q hout => hkept q fun r hr htouch => ?_, hkept, fun way hunit hbeside hnot => ?_⟩
  · exact hout (htouch.isBelow (hist.of_mem hr).1)
  · have hspared : ∀ r ∈ runs, ¬ r.MayTouch workdir (goalOf [] workdir ++ way) :=
      fun r hr => not_mayTouch_unit (hist.of_mem hr).1 hunit hbeside (hnot r hr)
    refine ⟨hkept _ hspared, fun hfile r hr => ?_⟩
    obtain ⟨hin, earlier, hearlier, hsub⟩ := hist.of_mem hr
    obtain ⟨hwf, hspares', horderly'⟩ :=
      hearlier.frames (fun e he => hmore e (hsub e he)) hw horderly
    have hnot' : ¬ ∃ r ∈ runs, r.MayTouch workdir (goalOf [] workdir ++ way) :=
      fun ⟨e, he, htouch⟩ => hspared e he htouch
    exact Run.compiles_of_spared hin (hmore r hr) hwf horderly' hunit hnot'
      ((hspares'.isFile_eq hnot').trans hfile)

section Unit

/-- A disk with the archive, and with a work directory in which there is a unit of the user. -/
def diskWithUserUnit : FileTree :=
  (diskOfA.add ["w"] .directory).writeFile ["w", "extra.ll"] [59]

theorem wellFormed_diskWithUserUnit : diskWithUserUnit.WellFormed := by
  decide

/-- A plan is settled where no compiler can be started, which fails at the probe. -/
def settlingWithout : Run where
  task := .settle
    ⟨Units.toolsWriting (.parse "/w/main.ll") (.ok ()), false, [],
      ⟨[("CLANG_PATH", "/clang"), ("CLANGPP_PATH", "/clang++")], none⟩⟩
    ⟨[.parse "/scala-native-nativelib.jar"], .parse "/w", "main", none, none, .unsaid⟩
  around := .still []
  before := .ofTree diskWithUserUnit

/-- A build after that, whose toolchain writes a second unit. -/
def buildingSecond : Run where
  task := .build planOfA (Units.toolsWriting (.parse "/w/main.ll") (.ok ()))
  around := aroundOfA succeeding
  before := settlingWithout.after

theorem probesContained_still (cwd : Location) : ProbesContained (.still cwd) where
  probe _ _ _ _ hw := ⟨hw, .refl _ _⟩
  asked _ _ hw := ⟨hw, .refl _ _⟩

theorem isIn_settlingWithout : settlingWithout.IsIn (.parse "/w") :=
  .settle (isDirectory_iff.2 (node?_nil _)) (by decide) (probesContained_still [])

/-- The call of code generation in a build that writes the unit `/w/main.ll`. -/
def mainCall (made : List String → ToolReply × List UInt8) (before : World) : Units.Call :=
  codeCall planOfA (Units.toolsWriting (.parse "/w/main.ll") (.ok ())) (aroundOfA made) before
    (.ofLists [] [] []) []

/-- Such a call writes the unit. -/
def MainCallWrites (made : List String → ToolReply × List UInt8) (before : World) : Prop :=
  ((mainCall made before).treeFrom (perform (Units.beforeCode planOfA) (aroundOfA made)
      (mainCall made before).before).2).stamp? ["w", "main.ll"] ≠
    (perform (Units.beforeCode planOfA) (aroundOfA made)
      (mainCall made before).before).2.tree.stamp? ["w", "main.ll"]

instance (made : List String → ToolReply × List UInt8) (before : World) :
    Decidable (MainCallWrites made before) :=
  inferInstanceAs (Decidable (_ ≠ _))

section Building

variable {made : List String → ToolReply × List UInt8} {before : World}

theorem contained_building (hw : before.tree.WellFormed) (hwrites : MainCallWrites made before) :
    Contained planOfA (Units.toolsWriting (.parse "/w/main.ll") (.ok ())) (aroundOfA made)
      before where
  absolute := by decide
  directory := isDirectory_iff.2 (node?_nil _)
  code l defns hlinked hoptimized := by
    -- such a toolchain links and optimizes nothing
    obtain rfl : Linked.ofLists [] [] [] = l := Except.ok.inj hlinked
    obtain rfl : [] = defns := Except.ok.inj hoptimized
    have hgoal : goalOf [] (.parse "/w/main.ll") = ["w", "main.ll"] := by decide
    exact Units.Call.writesOnlyUnits_of_writing rfl (by decide) (by decide)
      (show goalOf [] (.parse "/w/main.ll") = goalOf [] (.parse "/w") ++ ["main.ll"] by decide)
      ⟨by simp, by decide⟩ hw (isDirectory_iff.2 (node?_nil _)) (hgoal ▸ hwrites)
  units u hu := (unitCall_outputTool rfl (by decide) hu).1
  sources s hs := (sourceCall_outputTool rfl (by decide) (by decide)
    (by simp [planOfA]) hs).1
  executable := finalCall_outputTool rfl (by decide)

theorem shipsNoMarker_archiveOfA : ShipsNoMarker archiveOfA := by
  intro all hall m hm
  have hways : ∀ m ∈ (Archive.members archiveOfA).toOption.getD [], m.way ≠ [markerName] := by
    decide
  rw [hall] at hways
  exact hways m hm

variable {t : FileTree} (hist : History (.parse "/w") (.ofTree t) runs before)
  (ht : t.WellFormed) (hfresh : t.isFile ["w", "units.json"] = false ∧
    t.isFile ["w", "lib", "sources.json"] = false)
  (harchive : (t.file? ["a.jar"]).map File.bytes = some archiveOfA)

include hist ht hfresh

theorem frames_before_building : before.tree.WellFormed ∧
    Spares (goalOf [] (.parse "/w") <+: ·) t before.tree ∧
      Orderly (.parse "/w") (goalOf [] (.parse "/w") <+: ·) before.tree := by
  have hrecord : Units.recordAt [] (.parse "/w") = ["w", "units.json"] := by decide
  have hmanifest : fileAt (libraryAt (.parse "/w")) = ["w", "lib", "sources.json"] := by
    decide
  exact hist.frames (fun r hr q hq => hq.isBelow (hist.of_mem hr).1) ht
    (orderly_of_fresh (hrecord ▸ hfresh.1) (hmanifest ▸ hfresh.2))

include harchive

theorem bytes_of_archive {f : File}
    (hf : before.tree.node? (goalOf [] planOfA.archive) = some (.file f)) :
    f.bytes = archiveOfA := by
  obtain ⟨-, hspares, -⟩ := frames_before_building hist ht hfresh
  have hnode := hspares.node?_of_file (by decide) hf
  rw [file?, show t.node? ["a.jar"] = _ from hnode] at harchive
  exact Option.some.inj harchive

theorem isIn_building (hwrites : MainCallWrites made before) :
    (⟨.build planOfA (Units.toolsWriting (.parse "/w/main.ll") (.ok ())), aroundOfA made,
      before⟩ : Run).IsIn (.parse "/w") := by
  obtain ⟨hwf, -, horderly⟩ := frames_before_building hist ht hfresh
  have hcontained := contained_building hwf hwrites
  have hbeside : ¬ goalOf [] planOfA.workdir <+: goalOf [] planOfA.archive := by decide
  refine .build rfl hcontained (archiveInOrder_of_untouched hcontained (fun q hq => hq.isBelow)
    hwf horderly hbeside fun f hf => .inl ?_)
  exact (bytes_of_archive hist ht hfresh harchive hf) ▸ shipsNoMarker_archiveOfA

end Building

theorem isIn_buildingSecond : buildingSecond.IsIn (.parse "/w") :=
  isIn_building (.cons .nil isIn_settlingWithout) wellFormed_diskWithUserUnit
    (by decide) (by decide) (by decide +kernel)

/-- The archive and the unit of the user are kept, and the build compiles that unit too. -/
theorem user_unit_survives_history :
    History (.parse "/w") (.ofTree diskWithUserUnit) [buildingSecond, settlingWithout]
        buildingSecond.after ∧
      buildingSecond.after.tree.file? ["a.jar"] = diskWithUserUnit.file? ["a.jar"] ∧
      buildingSecond.after.tree.file? ["w", "extra.ll"] = diskWithUserUnit.file? ["w", "extra.ll"] ∧
      buildingSecond.Compiles ["extra.ll"] := by
  have hist : History (.parse "/w") (.ofTree diskWithUserUnit) [buildingSecond, settlingWithout]
      buildingSecond.after := .cons (.cons .nil isIn_settlingWithout) isIn_buildingSecond
  obtain ⟨houtside, -, hunits⟩ := history_keeps_files hist wellFormed_diskWithUserUnit
    (by decide) (by decide)
  have hnot : ∀ r ∈ [buildingSecond, settlingWithout],
      ¬ r.Wrote (goalOf [] (.parse "/w") ++ ["extra.ll"]) := by
    rintro r hr ⟨plan, tools, l, defns, htask, hlinked, hoptimized, before, v, hbefore, hrewrote⟩
    rcases List.mem_pair.1 hr with rfl | rfl
    · cases htask
      obtain rfl : Linked.ofLists [] [] [] = l := Except.ok.inj hlinked
      obtain rfl : [] = defns := Except.ok.inj hoptimized
      obtain rfl : (perform (Units.beforeCode planOfA) (aroundOfA succeeding)
        (mainCall succeeding settlingWithout.after).before).2 = v := congrArg Prod.snd hbefore
      exact absurd hrewrote.2 (by decide +kernel)
    · cases htask
  obtain ⟨hsame, hcompiled⟩ := hunits ["extra.ll"] ⟨by simp, by decide⟩ (by decide) hnot
  exact ⟨hist, houtside _ (by decide), hsame, hcompiled (by decide) _ (by simp)⟩

end Unit

section Relative

/-- A disk with a directory in the work directory that is called like this, and with a file of the
user in it. -/
def diskWithNested : FileTree :=
  ((FileTree.empty.add ["w"] .directory).add ["w", "w"] .directory).writeFile
    ["w", "w", "main.ll.o"] [85]

/-- A build in a work directory that is not given from the root. -/
def buildingRelative : Run where
  task := .build { planOfA with workdir := .parse "w" }
    (Units.toolsWriting (.parse "w/main.ll") (.ok ()))
  around := aroundOfA succeeding
  before := .ofTree diskWithNested

theorem units_buildingRelative {l : Linked} {defns : List Definition}
    {units : List Path} {v : World}
    (h : Generated { planOfA with workdir := .parse "w" }
      (Units.toolsWriting (.parse "w/main.ll") (.ok ())) (aroundOfA succeeding)
      (.ofTree diskWithNested) l defns units v) : units = [.parse "w/main.ll"] := by
  obtain rfl : Linked.ofLists [] [] [] = l := Except.ok.inj h.linked
  obtain rfl : [] = defns := Except.ok.inj h.optimized
  have hunits : (codeCall { planOfA with workdir := .parse "w" }
      (Units.toolsWriting (.parse "w/main.ll") (.ok ())) (aroundOfA succeeding)
      (.ofTree diskWithNested) (.ofLists [] [] []) []).outcome.toOption =
        some [.parse "w/main.ll"] := by
    decide +kernel
  rw [h.outcome_codeCall] at hunits
  exact Option.some.inj hunits

/-- Tools run in the work directory, where a path that is not given from the root leads elsewhere:
the compiler of the unit writes to a file of the user that the build may not touch. -/
theorem relative_build_overwrites_file :
    buildingRelative.before.tree.file? ["w", "w", "main.ll.o"] = some ⟨[85], false⟩ ∧
      (buildingRelative.after.tree.file? ["w", "w", "main.ll.o"]).map File.bytes = some [79] ∧
      ¬ buildingRelative.MayTouch (.parse "w") ["w", "w", "main.ll.o"] := by
  refine ⟨by decide, by decide +kernel, fun htouch => ?_⟩
  have hworkdir : goalOf [] (.parse "w") = ["w"] := by decide
  have hlibrary : libraryAt (.parse "w") = ["w", "lib"] := by decide
  have hrecord : Units.recordAt [] (.parse "w") = ["w", "units.json"] := by decide
  cases htouch with
  | build htouch =>
      generalize hq : ["w", "w", "main.ll.o"] = q at htouch
      cases htouch with
      | library way => simp [hlibrary] at hq
      | executable => simp [hworkdir] at hq
      | record => simp [hrecord] at hq
      | @object _ _ _ _ way hgenerated hmem =>
          have hplace : ["w", "main.ll.o"] = objectWay way := by simpa [hworkdir] using hq
          have hway : objectWay way = objectWay ["w", "main.ll"] := hplace.symm
          have hne : way ≠ [] := by
            rintro rfl
            exact absurd hway (by decide)
          rw [units_buildingRelative hgenerated, objectWay_injective hne (by simp) hway] at hmem
          exact absurd hmem (by decide)
      | @unit _ _ way _ _ hunit _ =>
          obtain rfl : ["w", "main.ll.o"] = way := by simpa [hworkdir] using hq
          exact absurd hunit.2 (by decide)

end Relative

end StagedBuild.Build
