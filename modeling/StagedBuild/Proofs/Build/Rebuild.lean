import StagedBuild.Proofs.Build.Again
import StagedBuild.Proofs.Build.Runs

/-!
A second build in the same place, when nothing has changed in between. Code generation gives the
same units, they are all compiled again, nothing is left to compile in the library, and the
executable is linked by the same call.
-/

namespace StagedBuild.Build

open Action FileTree Disk NativeLibrary Manifest

variable {plan : Plan} {tools : IrTools} {around : Surroundings} {w w' v g later : World}
  {l : Linked} {defns : List Definition} {units : List Path} {bytes : List UInt8}
  {ways : List Location} {left t : FileTree} {cwd way : Location}
  {answered : List (Pool.Answered Path)}

section Finishing

variable (hgenerated : Generated plan tools around w l defns units g)

variable
  (hunits : ∀ answered v,
    CalledEach plan around .compileUnits (unitCall plan) units g answered v →
      ∀ a ∈ answered, a.reply.isSuccess = true)
  (hprepare : ∀ answered v, UnitsCompiled plan tools around w l defns units answered v →
    ∃ p v', perform (prepare plan l.links) around (v.announcing plan .compileLibrary) =
      (.ok p, v'))
  (hsources : ∀ answered p v compiled v',
    LibraryPrepared plan tools around w l defns units answered p v →
      Pool.RanAll around (sourceCall plan) v compiled v' →
        (compiled.map Pool.Answered.item).Perm p.pending →
          ∀ a ∈ compiled, a.reply.isSuccess = true)
  (hfinal : ∀ answered p compiled v reply w',
    LibraryCompiled plan tools around w l defns units answered p compiled v →
      Ran around (finalCall plan units p.included l.links) (v.announcing plan .linkExecutable)
        reply w' → reply.isSuccess = true)

include hgenerated hunits hprepare hsources hfinal

theorem Course.exists_finished {steps : List Step} {outcome : Except Fault Result}
    (h : Course plan tools around w steps outcome w') :
    ∃ answered p compiled v reply,
      LibraryCompiled plan tools around w l defns units answered p compiled v ∧
      Ran around (finalCall plan units p.included l.links) (v.announcing plan .linkExecutable)
        reply w' ∧
      steps = irSteps plan l defns ++ compileSteps plan answered compiled ++
        [.tool (finalCall plan units p.included l.links) reply] ∧
      outcome = .ok ⟨plan.outputPath, units, units.map Path.objectPath,
        ⟨plan.libraryDirectory, p.included.map NativeLibrary.Source.objectPath,
          p.pending.map NativeLibrary.Source.objectPath, p.removed⟩, Stage.all⟩ := by
  have hcompiled : ∀ {l' : Linked} {defns' : List Definition} {units' : List Path}
      {answered : List (Pool.Answered Path)} {v : World},
      UnitsCompiled plan tools around w l' defns' units' answered v →
      l' = l ∧ defns' = defns ∧ units' = units := by
    intro l' defns' units' answered v h'
    obtain ⟨_, hgenerated', -⟩ := h'.called
    obtain ⟨hl, hdefns, hunits, -⟩ := hgenerated.unique hgenerated'
    exact ⟨hl, hdefns, hunits⟩
  cases h with
  | linkIr hfault => cases hfault.symm.trans hgenerated.linked
  | optimize hlinked hfault =>
      cases hlinked.symm.trans hgenerated.linked
      cases hfault.symm.trans hgenerated.optimized
  | generate hlinked hoptimized hfault _ _ =>
      cases hlinked.symm.trans hgenerated.linked
      cases hoptimized.symm.trans hgenerated.optimized
      cases congrArg Prod.fst (hfault.symm.trans hgenerated.generated)
  | compileUnits hgenerated' hcalled hfails =>
      obtain ⟨rfl, rfl, rfl, rfl⟩ := hgenerated.unique hgenerated'
      obtain ⟨a, ha, hnot⟩ := hfails.exists_failed fun u => by simp [unitCall, Units.command]
      exact absurd (hunits _ _ hcalled a ha) hnot
  | prepareLibrary h' hfault =>
      obtain ⟨rfl, rfl, rfl⟩ := hcompiled h'
      obtain ⟨p, v', hok⟩ := hprepare _ _ h'
      cases congrArg Prod.fst (hfault.symm.trans hok)
  | compileLibrary hprepared hran hperm hfails =>
      obtain ⟨_, h'⟩ := hprepared.unitsCompiled
      obtain ⟨rfl, rfl, rfl⟩ := hcompiled h'
      obtain ⟨a, ha, hnot⟩ := hfails.exists_failed (sourceCall_ne_nil plan)
      exact absurd (hsources _ _ _ _ _ hprepared hran hperm a ha) hnot
  | linkExecutable hlibrary hran hfails =>
      obtain ⟨_, h'⟩ := hlibrary.unitsCompiled
      obtain ⟨rfl, rfl, rfl⟩ := hcompiled h'
      obtain ⟨a, ha, hnot⟩ := hfails.exists_failed fun _ => by
        simp [finalCall, Executable.command]
      obtain rfl := List.mem_singleton.1 ha
      exact absurd (hfinal _ _ _ _ _ _ hlibrary hran) hnot
  | finished hlibrary hran _ =>
      obtain ⟨_, h'⟩ := hlibrary.unitsCompiled
      obtain ⟨rfl, rfl, rfl⟩ := hcompiled h'
      exact ⟨_, _, _, _, _, hlibrary, hran, rfl, rfl⟩

end Finishing

theorem isUnitWay_below (hunit : Units.IsUnitWay (["lib"] ++ way)) : Units.IsUnitWay way := by
  have hne : way ≠ [] := by
    rintro rfl
    exact absurd hunit.2 (by decide)
  refine ⟨hne, ?_⟩
  have hlast := hunit.2
  rwa [List.getLast?_append_of_ne_nil _ hne] at hlast

namespace Settled

variable (h : Settled cwd plan units l.links bytes ways left t)

include h

theorem leads (habsolute : plan.workdir.isAbsolute = true) :
    LeadsToDirectory plan.workdir t cwd := by
  have hlib := h.ready.copied.leads
  have hsteps : plan.libraryDirectory.steps ≠ [] := by
    rw [libraryDirectory_eq, Path.div_eq_descend, Path.steps_descend _ (by decide)]
    simp
  have hparent := leads_parent_of_locate hlib.isAskable hsteps hlib.locate
  rw [libraryDirectory_eq, Path.parent_div _ (by decide)] at hparent
  exact hparent.of_absolute habsolute cwd

theorem node?_unit (habsolute : plan.workdir.isAbsolute = true) (hunit : Units.IsUnitWay way)
    (hbeside : ¬ ["lib"] <+: way) :
    t.node? (goalOf cwd plan.workdir ++ way) = left.node? (goalOf cwd plan.workdir ++ way) := by
  have hletter : lastLetter (goalOf cwd plan.workdir ++ way) = some 'l' :=
    (lastLetter_append _ hunit.1).trans (lastLetter_of_isUnitWay hunit)
  refine h.elsewhere _ ?_ (by rw [hletter]; decide) fun heq => ?_
  · rw [goalOf_libraryDirectory, goalOf_of_absolute habsolute cwd, List.prefix_append_right_inj]
    exact hbeside
  · rw [heq, lastLetter_output habsolute] at hletter
    exact absurd hletter (by decide)

theorem node?_record (habsolute : plan.workdir.isAbsolute = true) :
    t.node? (Units.recordAt cwd plan.workdir) = left.node? (Units.recordAt cwd plan.workdir) := by
  have hletter : lastLetter (Units.recordAt cwd plan.workdir) = some 'n' :=
    (lastLetter_concat _ _).trans (by decide)
  refine h.elsewhere _ ?_ (by rw [hletter]; decide) fun heq => ?_
  · rw [goalOf_libraryDirectory, Units.recordAt, goalOf_of_absolute habsolute cwd,
      List.prefix_append_right_inj]
    decide
  · rw [heq, lastLetter_output habsolute] at hletter
    exact absurd hletter (by decide)

end Settled

/-- The disk after units were generated once more: the directories were there just before, or they
were there when units had been generated for the first time. -/
structure Regenerated (around : Surroundings) (plan : Plan) (units : List Path)
    (left t t' : FileTree) : Prop extends UnitsReady around plan units t t' where
  made : ∀ q, t'.isDirectory q = true → t.isDirectory q = true ∨ left.isDirectory q = true

section Generating

variable (habsolute : plan.workdir.isAbsolute = true) (hw : w.tree.WellFormed)
  (hcwd : w.tree.isDirectory around.directory = true)
  (hfirst : Unbuilt around.directory plan w.tree)
  (hcode : (codeCall plan tools around w l defns).WritesOnlyUnits)
  (hgenerated : Generated plan tools around w l defns units g)
  (hsettled : Settled around.directory plan units l.links bytes ways g.tree later.tree)

include habsolute hw hcwd hfirst hcode hgenerated hsettled

theorem Settled.isDirectory_current : later.tree.isDirectory around.directory = true := by
  have hleft := (sound_codeCall hcode hw hcwd).2 _ hcwd
  rw [hgenerated.after_codeCall] at hleft
  rw [hsettled.directories]
  · exact hleft
  · rw [← goalOf_of_absolute (isAbsolute_libraryDirectory habsolute) around.directory]
    exact hfirst.apart

theorem Settled.keepsUnits {f : File}
    (hgave : (codeCall plan tools around w l defns).Gave v units f) :
    (codeCall plan tools around w l defns).KeepsUnits v
      (codeCall plan tools around later l defns).before := by
  have hafter := hgenerated.after_codeCall
  have htree := codeCall_before_tree plan tools around later l defns
  refine ⟨htree ▸ hsettled.ready.copied.wellFormed, htree ▸ ?_, htree ▸ hsettled.leads habsolute,
    ?_, fun way hunit => ?_⟩
  · exact hsettled.isDirectory_current habsolute hw hcwd hfirst hcode hgenerated
  · rw [htree, hafter]
    exact hsettled.node?_record habsolute
  rw [htree, hafter]
  by_cases hbelow : ["lib"] <+: way
  · obtain ⟨rest, rfl⟩ := hbelow
    have hrest := isUnitWay_below hunit
    have heq : goalOf around.directory plan.workdir ++ (["lib"] ++ rest) =
        goalOf [] plan.libraryDirectory ++ rest := by
      rw [goalOf_libraryDirectory, goalOf_of_absolute habsolute around.directory,
        List.append_assoc]
    have hgone := not_isOccupied_iff.1 (hsettled.unitsGone rest hrest)
    rw [← heq] at hgone
    refine .inr ⟨not_isOccupied_iff.1 fun hocc => ?_, hgone⟩
    obtain ⟨before, hbefore⟩ := hgave.cleared
    rcases Units.isOccupied_of_beforeCode hbefore hocc with hocc | hway
    · refine hfirst.units rest hrest ?_
      rw [codeCall_before_tree] at hocc
      rw [goalOf_of_absolute (isAbsolute_libraryDirectory habsolute), ← heq]
      exact hocc
    · have hdir := (hsettled.leads habsolute).isDirectory_of_onTheWay hway
      exact not_isOccupied_iff.2 hgone (isOccupied_of_isDirectory hdir)
  · exact .inl (hsettled.node?_unit habsolute hunit hbelow)

theorem Settled.regenerated
    (hlinked : linkAnswer plan tools (later.askedToLink plan) = .ok l)
    (hoptimized : tools.optimize plan l (later.askedToOptimize plan l) = .ok defns)
    (hcode' : (codeCall plan tools around later l defns).WritesOnlyUnits)
    (hrepeats : (codeCall plan tools around w l defns).Repeats
      (codeCall plan tools around later l defns).before) :
    ∃ g', Generated plan tools around later l defns units g' ∧
      Regenerated around plan units g.tree later.tree g'.tree := by
  have hafter := hgenerated.after_codeCall
  have hbefore := codeCall_before_tree plan tools around w l defns
  obtain ⟨v, f, hgave⟩ := Units.Call.exists_gave hcode (hbefore ▸ hw) (hbefore ▸ hcwd)
    hgenerated.outcome_codeCall
  have hkept := hsettled.keepsUnits habsolute hw hcwd hfirst hcode hgenerated hgave
  obtain ⟨v', f', hgave', hsame, hgone⟩ := hgave.again hkept hcode hcode' hrepeats
  change (codeCall plan tools around later l defns).Gave v' units f' at hgave'
  have hgenerated' : Generated plan tools around later l defns units
      (codeCall plan tools around later l defns).after :=
    ⟨hlinked, hoptimized, Prod.ext hgave'.outcome rfl⟩
  refine ⟨_, hgenerated', hgenerated'.ready hcode' hsettled.ready.copied.wellFormed
    (hsettled.isDirectory_current habsolute hw hcwd hfirst hcode hgenerated), fun q hq => ?_⟩
  -- no directory is in the place of the record
  have hne : q ≠ Units.recordAt around.directory plan.workdir := by
    rintro rfl
    cases (isDirectory_iff.1 hq).symm.trans ((hgave'.after _).trans (if_pos rfl))
  rw [isDirectory_congr ((hgave'.after q).trans (if_neg hne))] at hq
  rcases hsame.directories q hq with hold | hmade
  · left
    rw [← codeCall_before_tree plan tools around later l defns, ← hgone.isDirectory_eq]
    exact hold
  · right
    rw [← hafter, isDirectory_congr ((hgave.after q).trans (if_neg hne))]
    exact hmade

end Generating

namespace Regenerated

variable {t' : FileTree} (h : Regenerated around plan units left t t')
  (habsolute : plan.workdir.isAbsolute = true)
  (hsettled : Settled around.directory plan units l.links bytes ways left t)

include h habsolute hsettled

theorem canWrite
    (hcan : ∀ u ∈ units, CanWrite left (goalOf around.directory plan.workdir) u.objectPath) :
    ∀ u ∈ units, CanWrite t' (goalOf around.directory plan.workdir) u.objectPath := by
  intro u hu
  have hmem := hu
  rw [h.units_eq] at hmem
  obtain ⟨way, hway, rfl⟩ := List.mem_map.1 hmem
  obtain ⟨hunit, hocc⟩ := Units.mem_unitWays.1 hway
  have hnames := Units.entryNames_of_isOccupied h.wellFormed hocc
  have hsteps : ∀ s ∈ way, isStep s = true := fun s hs => isStep_of_isEntryName (hnames s hs)
  have hpath := objectPath_descend plan.workdir hsteps hunit.1
  have hobject := isStep_objectWay hsteps hunit.1
  have hold := hcan _ hu
  refine .of_passed hold.askable ?_ hold.fits (fun q hq => ?_) fun hdir => ?_
  · rw [hpath, isAbsolute_descend _ hobject, habsolute]
  · rw [hpath, mem_passedBy_descend_plain hobject (up_not_mem_objectWay (up_not_mem hnames))] at hq
    rcases hq with hq | ⟨front, back, hsplit, hback, rfl⟩
    · refine h.leads.isDirectory_of_onTheWay (.inl ?_)
      rwa [passedBy_of_absolute habsolute] at hq ⊢
    · -- the directories above an object are those above the unit
      obtain ⟨back, name, rfl⟩ := (List.eq_nil_or_concat back).resolve_left hback
      obtain ⟨init, last, rfl⟩ := (List.eq_nil_or_concat way).resolve_left hunit.1
      rw [List.concat_eq_append, objectWay_concat, List.concat_eq_append, ← List.append_assoc]
        at hsplit
      obtain rfl := List.append_inj_left' hsplit rfl
      rw [List.concat_eq_append, List.append_assoc, ← List.append_assoc] at hocc
      rw [goalOf_of_absolute habsolute]
      rw [goalOf_of_absolute habsolute] at hocc
      exact h.wellFormed.isDirectory_above hocc (by simp)
  · rcases h.made _ hdir with hold' | hmade
    · exact hsettled.objects _ hu hold'
    · exact hold.free hmade

theorem ready : Ready around.directory plan l.links bytes ways t' := by
  have hgoal : goalOf around.directory plan.libraryDirectory = goalOf [] plan.libraryDirectory :=
    goalOf_of_absolute (isAbsolute_libraryDirectory habsolute) _
  refine hsettled.ready.of_spares h.spares h.wellFormed h.directories (fun name hname => ?_)
    (fun src hsrc => ⟨?_, ?_⟩) ?_ fun src hsrc hother hdir => ?_
  · rw [← hgoal]
    rcases List.mem_pair.1 hname with rfl | rfl
    · exact not_codePlace_library (by simp) (by decide)
    · exact not_codePlace_library (by simp) (by decide)
  · rw [← hgoal]
    refine not_codePlace_library hsrc.1 ?_
    rcases lastLetter_of_isSourceWay hsrc with hletter | hletter <;> rw [hletter] <;> decide
  · rw [objectAt, ← hgoal]
    exact not_codePlace_library (by simp [objectWay]) (by rw [lastLetter_objectWay]; decide)
  · exact not_codePlace_archive hsettled.known
  · rcases h.made _ hdir with hold | hmade
    · exact hsettled.ready.complete.others src hsrc hother (isOccupied_of_isDirectory hold)
    · exact hsettled.others src hsrc hother hmade

theorem output : CanWrite t' (goalOf around.directory plan.workdir) plan.outputPath := by
  refine hsettled.output.mono h.directories fun hdir => ?_
  have hout : ¬ t.isDirectory (placeIn around.directory plan plan.outputPath) = true :=
    hsettled.output.free
  rcases h.made _ hdir with hold | hmade
  · exact hout hold
  · rw [hsettled.directories _ (output_outside habsolute)] at hout
    exact hout hmade

end Regenerated

theorem ready_of_unitsCompiled {links : List String} {t' : FileTree}
    (habsolute : plan.workdir.isAbsolute = true)
    (hknown : plan.archive.suffix ∈ Archive.knownSuffixes)
    (h : Ready cwd plan links bytes ways t) (hwf : t'.WellFormed)
    (hchanged : FilesChanged (Units.ObjectPlace (goalOf cwd plan.workdir)) t t') :
    Ready cwd plan links bytes ways t' := by
  have hgoal : goalOf cwd plan.libraryDirectory = goalOf [] plan.libraryDirectory :=
    goalOf_of_absolute (isAbsolute_libraryDirectory habsolute) _
  refine h.of_filesChanged hchanged hwf (fun name hname => ?_) (fun src hsrc => ⟨?_, ?_⟩)
    (not_objectPlace_archive hknown)
  · refine not_objectPlace_of_lastLetter ?_
    rw [lastLetter_append _ (by simp)]
    rcases List.mem_pair.1 hname with rfl | rfl <;> decide
  · refine not_objectPlace_of_lastLetter ?_
    rw [lastLetter_append _ hsrc.1]
    rcases lastLetter_of_isSourceWay hsrc with hletter | hletter <;> rw [hletter] <;> decide
  · rw [objectAt, ← hgoal]
    exact not_objectPlace_source hsrc

section Stages

variable {p : Preparation} (habsolute : plan.workdir.isAbsolute = true)
  (htools : ToolsWrite around plan)
  (hgenerated : Generated plan tools around later l defns units g)
  (hagain : Regenerated around plan units left later.tree g.tree)
  (hsettled : Settled around.directory plan units l.links bytes ways left later.tree)

include habsolute htools hgenerated hagain hsettled

/-- Once the units are compiled again, nothing is left to compile in the library. -/
theorem UnitsCompiled.prepares_again
    (h : UnitsCompiled plan tools around later l defns units answered v) :
    ∃ p v', perform (prepare plan l.links) around
      (v.announcing plan .compileLibrary) = (.ok p, v') ∧
      p.included = sourcesAt plan.libraryDirectory
        (neededWays plan.libraryDirectory plan.gc l.links ways) ∧
      p.pending = [] ∧ v'.tree.WellFormed ∧
      ∀ q, v'.tree.isDirectory q = g.tree.isDirectory q := by
  obtain ⟨g', hgenerated', hcalled⟩ := h.called
  obtain ⟨-, -, -, rfl⟩ := hgenerated.unique hgenerated'
  obtain ⟨hwf, hchanged⟩ :=
    hcalled.filesChanged hagain.toUnitsReady habsolute htools h.succeeded
  have hready := ready_of_unitsCompiled habsolute hsettled.known (hagain.ready habsolute hsettled)
    hwf hchanged
  rw [← (v.quiet_announcing plan .compileLibrary).2] at hready hchanged
  obtain ⟨p, v', hok, hincluded, hpending, hwf', hdirs⟩ :=
    hready.perform_prepare (isAbsolute_libraryDirectory habsolute)
  exact ⟨p, v', hok, hincluded, hpending, hwf', fun q =>
    (hdirs q).trans (hchanged.isDirectory_eq q)⟩

theorem LibraryPrepared.again
    (h : LibraryPrepared plan tools around later l defns units answered p v) :
    p.included = sourcesAt plan.libraryDirectory
        (neededWays plan.libraryDirectory plan.gc l.links ways) ∧
      p.pending = [] ∧ v.tree.WellFormed ∧ ∀ q, v.tree.isDirectory q = g.tree.isDirectory q := by
  obtain ⟨u, hcompiled, hprepare⟩ := h.prepared
  obtain ⟨p', v', hok, hrest⟩ :=
    hcompiled.prepares_again habsolute htools hgenerated hagain hsettled
  cases hprepare.symm.trans hok
  exact hrest

theorem LibraryCompiled.links_again {compiled : List (Pool.Answered Source)} {reply : ToolReply}
    (h : LibraryCompiled plan tools around later l defns units answered p compiled v)
    (hran : Ran around (finalCall plan units p.included l.links)
      (v.announcing plan .linkExecutable) reply w') : reply.isSuccess = true := by
  obtain ⟨u, hprepared, hsources⟩ := h.called
  obtain ⟨-, hpending, hwf, hdirs⟩ :=
    hprepared.again habsolute htools hgenerated hagain hsettled
  have hnone : compiled = [] := by
    simpa [hpending] using h.items_perm
  subst hnone
  cases hsources
  have htree := (v.quiet_announcing plan .linkExecutable).2
  refine ((htools.final units p.included l.links).succeeds_iff hran (htree ▸ hwf)).2 ?_
  rw [htree]
  exact (hagain.output habsolute hsettled).congr hdirs

/-- A build whose units are generated again gets to its end. It compiles all units, and nothing of
the library. -/
theorem Course.finishes_again {steps : List Step} {outcome : Except Fault Result}
    (hcan : ∀ u ∈ units, CanWrite left (goalOf around.directory plan.workdir) u.objectPath)
    (h : Course plan tools around later steps outcome w') :
    ∃ (answered : List (Pool.Answered Path)) (removed : List Path) (reply : ToolReply),
      (answered.map Pool.Answered.item).Perm units ∧
      steps = irSteps plan l defns ++ compileSteps plan answered [] ++
        [.tool (finalCall plan units (sourcesAt plan.libraryDirectory
          (neededWays plan.libraryDirectory plan.gc l.links ways)) l.links) reply] ∧
      outcome = .ok ⟨plan.outputPath, units, units.map Path.objectPath,
        ⟨plan.libraryDirectory, (sourcesAt plan.libraryDirectory
          (neededWays plan.libraryDirectory plan.gc l.links ways)).map
            NativeLibrary.Source.objectPath, [], removed⟩, Stage.all⟩ := by
  obtain ⟨answered, p, compiled, v, reply, hlibrary, -, rfl, rfl⟩ :=
    Course.exists_finished hgenerated
      (fun answered v hcalled => hcalled.succeeds hagain.toUnitsReady habsolute htools
        (hagain.canWrite habsolute hsettled hcan))
      (fun answered v hcompiled => by
        obtain ⟨p, v', hok, -⟩ :=
          hcompiled.prepares_again habsolute htools hgenerated hagain hsettled
        exact ⟨p, v', hok⟩)
      (fun answered p v compiled v' hprepared _ hperm => by
        obtain ⟨-, hpending, -⟩ :=
          hprepared.again habsolute htools hgenerated hagain hsettled
        obtain rfl : compiled = [] := by simpa [hpending] using hperm
        simp)
      (fun answered p compiled v reply w' hlibrary hran =>
        hlibrary.links_again habsolute htools hgenerated hagain hsettled hran) h
  obtain ⟨u, hprepared, -⟩ := hlibrary.called
  obtain ⟨hincluded, hpending, -⟩ :=
    hprepared.again habsolute htools hgenerated hagain hsettled
  obtain ⟨x, hcompiled⟩ := hprepared.unitsCompiled
  obtain rfl : compiled = [] := by simpa [hpending] using hlibrary.items_perm
  refine ⟨answered, p.removed, reply, hcompiled.items_perm, ?_, ?_⟩
  · rw [hincluded]
  · rw [hincluded, hpending]
    rfl

end Stages

/-- When a build generates code, the toolchain writes nothing but units. -/
def GeneratesUnits (plan : Plan) (tools : IrTools) (around : Surroundings) (w : World) : Prop :=
  ∀ l defns, linkAnswer plan tools (w.askedToLink plan) = .ok l →
    tools.optimize plan l (w.askedToOptimize plan l) = .ok defns →
    (codeCall plan tools around w l defns).WritesOnlyUnits

/-- A copy of the archive does not get in the way of what a build generates. -/
def ArchiveApart (plan : Plan) (tools : IrTools) (around : Surroundings) (w : World) : Prop :=
  ∀ l defns units v f t, Generated plan tools around w l defns units v →
    w.tree.node? (goalOf around.directory plan.archive) = some (.file f) →
    Filled around.unpacker plan.libraryDirectory f.bytes t →
    ShipsApart around.directory plan units l.links v.tree t

/-- The toolchain does for a later build what it did for an earlier one. -/
structure ToolchainRepeats (plan : Plan) (tools : IrTools) (around : Surroundings)
    (w later : World) : Prop where
  linked : tools.link plan (later.askedToLink plan) = tools.link plan (w.askedToLink plan)
  optimized : ∀ l, tools.optimize plan l (later.askedToOptimize plan l) =
    tools.optimize plan l (w.askedToOptimize plan l)
  code : ∀ l defns, linkAnswer plan tools (w.askedToLink plan) = .ok l →
    tools.optimize plan l (w.askedToOptimize plan l) = .ok defns →
    (codeCall plan tools around w l defns).Repeats (codeCall plan tools around later l defns).before

theorem ToolchainRepeats.linkAnswer_eq (h : ToolchainRepeats plan tools around w later) :
    linkAnswer plan tools (later.askedToLink plan) =
      linkAnswer plan tools (w.askedToLink plan) := by
  rw [linkAnswer, h.linked, linkAnswer]

/-- Building twice. After a build that succeeds where there was none before, a second one succeeds
when nothing has changed in between and the toolchain repeats itself. The first steps are those of
the toolchain, the calls for the units, those for sources of the library, and the link of the
executable; the second ones are the same for the same units and the same link, without a call for
any source. -/
theorem rebuild_repeats {result : Result} (habsolute : plan.workdir.isAbsolute = true)
    (hw : w.tree.WellFormed) (hcwd : w.tree.isDirectory around.directory = true)
    (hfirst : Unbuilt around.directory plan w.tree) (htools : ToolsWrite around plan)
    (hships : ArchiveApart plan tools around w) (hcode : GeneratesUnits plan tools around w)
    (hcode' : GeneratesUnits plan tools around later)
    (hrepeats : ToolchainRepeats plan tools around w later)
    (hok : perform (build plan tools) around w = (.ok result, w'))
    (hsame : later.tree = w'.tree) :
    ∃ (l : Linked) (defns : List Definition) (included : List Source)
      (first second : List (Pool.Answered Path)) (compiled : List (Pool.Answered Source))
      (reply reply' : ToolReply) (again : Result) (later' : World),
      perform (build plan tools) around later = (.ok again, later') ∧
      w'.steps around = w.steps around ++ (irSteps plan l defns ++
        compileSteps plan first compiled ++
          [.tool (finalCall plan result.units included l.links) reply]) ∧
      later'.steps around = later.steps around ++ (irSteps plan l defns ++
        compileSteps plan second [] ++
          [.tool (finalCall plan result.units included l.links) reply']) ∧
      (first.map Pool.Answered.item).Perm result.units ∧
      (second.map Pool.Answered.item).Perm result.units ∧
      again.units = result.units ∧ again.library.objects = result.library.objects ∧
      again.library.compiled = [] := by
  obtain ⟨steps, hcourse⟩ := build_takes_course plan tools around w
  have hsteps := hcourse.steps_eq
  rw [hok] at hcourse hsteps
  dsimp only at hcourse hsteps
  cases hcourse with
  | @finished l defns units v w' first p compiled reply hlibrary hran hsuccess =>
      obtain ⟨_, hcompiled⟩ := hlibrary.unitsCompiled
      obtain ⟨g, hgenerated, -⟩ := hcompiled.called
      have hafter := hgenerated.after_codeCall
      have hunits := hcode l defns hgenerated.linked hgenerated.optimized
      have hrepeated := hrepeats.code l defns hgenerated.linked hgenerated.optimized
      have hlinked := hrepeats.linkAnswer_eq.trans hgenerated.linked
      have hoptimized := (hrepeats.optimized l).trans hgenerated.optimized
      obtain ⟨bytes, ways, hsettled, hincluded, hcan⟩ := hlibrary.settled habsolute hw hcwd hunits
        htools hfirst (fun f t hf ht => hafter ▸ hships l defns units g f t hgenerated hf ht)
        hran hsuccess
      rw [hafter] at hsettled hcan
      rw [← hsame] at hsettled
      obtain ⟨g', hgenerated', hagain⟩ := hsettled.regenerated habsolute hw hcwd hfirst hunits
        hgenerated hlinked hoptimized (hcode' l defns hlinked hoptimized) hrepeated
      obtain ⟨steps', hcourse'⟩ := build_takes_course plan tools around later
      have hsteps' := hcourse'.steps_eq
      obtain ⟨second, removed, reply', hperm, rfl, houtcome⟩ :=
        hcourse'.finishes_again habsolute htools hgenerated' hagain hsettled hcan
      refine ⟨l, defns, p.included, first, second, compiled, reply, reply', _, _,
        Prod.ext houtcome rfl, hsteps, ?_, hcompiled.items_perm, hperm, rfl, ?_, rfl⟩
      · rw [hincluded]
        exact hsteps'
      · rw [hincluded]

theorem toolsWrite_outputTool {made : List String → ToolReply × List UInt8}
    (htool : around.tool = outputTool around.directory made)
    (hmade : ∀ command, (made command).1.isSuccess = true)
    (habsolute : plan.workdir.isAbsolute = true) (hclang : plan.clang.isAbsolute = true)
    (hclangpp : plan.clangpp.isAbsolute = true) (hflags : "-o" ∉ plan.compileFlags) :
    ToolsWrite around plan where
  units way _ hnames := by
    refine writesOutput_outputTool (outputWord_unitCall hclangpp ?_) htool (hmade _)
    rw [isAbsolute_descend _ fun s hs => isStep_of_isEntryName (hnames s hs), habsolute]
  sources src hsrc := by
    refine writesOutput_outputTool (outputWord_sourceCall hclang hclangpp hflags ?_) htool (hmade _)
    change (plan.libraryDirectory.descend src).isAbsolute = true
    rw [isAbsolute_descend _ fun s hs => isStep_of_isEntryName (hsrc.2.1 s hs),
      isAbsolute_libraryDirectory habsolute]
  final units included links :=
    writesOutput_outputTool (outputWord_finalCall hclangpp units included links) htool (hmade _)

section Writing

variable {loc q : Location} {contents : List UInt8}

theorem stamp?_writeFile (hne : q ≠ loc) (hparent : q ≠ loc.dropLast) :
    (t.writeFile loc contents).stamp? q = t.stamp? q := by
  unfold writeFile
  cases t.file? loc with
  | some f =>
      dsimp only
      rw [stamp?, entries_set, if_neg (Ne.symm hne), stamp?]
  | none =>
      dsimp only [add, stampParent]
      split
      · rw [stamp?, entries_set, if_neg (Ne.symm hparent), entries_set,
          if_neg (Ne.symm hne), stamp?]
      · rw [stamp?, entries_set, if_neg (Ne.symm hne), stamp?]

theorem rewrote_writeFile_iff (hwf : (t.writeFile loc contents).WellFormed)
    (hnot : ¬ t.isDirectory loc = true)
    (hstamp : (t.writeFile loc contents).stamp? loc ≠ t.stamp? loc) :
    Units.Rewrote t (t.writeFile loc contents) q ↔ q = loc := by
  have hne : loc ≠ [] := by
    rintro rfl
    exact hnot (isDirectory_iff.2 (node?_nil t))
  have hfile : (t.writeFile loc contents).isFile loc = true :=
    isFile_iff.2 ⟨t.written loc contents, (node?_writeFile hne _ _).trans (if_pos rfl)⟩
  constructor
  · rintro ⟨hq, hnew⟩
    by_contra hother
    refine hnew (stamp?_writeFile hother ?_)
    rintro rfl
    have hocc :
        (t.writeFile loc contents).isOccupied (loc.dropLast ++ [loc.getLast hne]) = true := by
      rw [List.dropLast_append_getLast]
      exact isOccupied_of_isFile hfile
    exact not_isFile_of_isDirectory (hwf.isDirectory_above hocc (by simp)) hq
  · rintro rfl
    exact ⟨hfile, hstamp⟩

variable {c : Units.Call} {p : Path} {ended : Except Fault Unit}
  (htools : c.tools.generate = (Units.toolsWriting p ended).generate)

include htools

theorem treeFrom_of_writing
    (hstamp : (c.treeFrom v).stamp? (goalOf [] p) ≠ v.tree.stamp? (goalOf [] p)) :
    ¬ v.tree.isDirectory (goalOf [] p) = true ∧
      c.treeFrom v = v.tree.writeFile (goalOf [] p) [] := by
  have htree : c.treeFrom v = (v.tree.write [] p []).toOption.getD v.tree := by
    rw [Units.Call.treeFrom, htools]
    rfl
  rw [htree] at hstamp ⊢
  rcases hwrite : v.tree.write [] p [] with e | t
  · rw [hwrite] at hstamp
    exact absurd rfl hstamp
  · obtain ⟨loc, hloc, hnot, rfl⟩ := exists_of_write hwrite
    obtain rfl := (locate_eq_ok_iff.1 hloc).1
    exact ⟨hnot, rfl⟩

theorem sameCode_of_writing {v' : World} (hwf : (c.treeFrom v).WellFormed)
    (hwf' : (c.treeFrom v').WellFormed)
    (hstamp : (c.treeFrom v).stamp? (goalOf [] p) ≠ v.tree.stamp? (goalOf [] p))
    (hstamp' : (c.treeFrom v').stamp? (goalOf [] p) ≠ v'.tree.stamp? (goalOf [] p)) :
    c.SameCode v v' := by
  obtain ⟨hnot, htree⟩ := treeFrom_of_writing htools hstamp
  obtain ⟨hnot', htree'⟩ := treeFrom_of_writing htools hstamp'
  have hdirs : ∀ {t : FileTree} {q : Location}, ¬ t.isDirectory (goalOf [] p) = true →
      (t.writeFile (goalOf [] p) []).isDirectory q = true → t.isDirectory q = true := by
    intro t q hfree hdir
    have hne : goalOf [] p ≠ [] := by
      intro hnil
      rw [hnil] at hfree
      exact hfree (isDirectory_iff.2 (node?_nil t))
    rw [isDirectory_iff, node?_writeFile hne] at hdir
    split at hdir
    · cases hdir
    · exact isDirectory_iff.2 hdir
  refine ⟨by rw [htools]; rfl, fun q => ?_, fun q hq => ?_, fun q hq => ?_⟩
  · rw [htree] at hwf hstamp ⊢
    rw [htree'] at hwf' hstamp' ⊢
    rw [rewrote_writeFile_iff hwf' hnot' hstamp', rewrote_writeFile_iff hwf hnot hstamp]
  · exact .inl (hdirs hnot' (htree' ▸ hq))
  · exact .inl (hdirs hnot (htree ▸ hq))

end Writing

section Twice

/-- The toolchain of a build that writes the unit `/w/main.ll`. -/
def mainTools : IrTools :=
  Units.toolsWriting (.parse "/w/main.ll") (.ok ())

variable {before : World}

theorem generatesUnits_mainTools (hw : before.tree.WellFormed)
    (hwrites : MainCallWrites succeeding before) :
    GeneratesUnits planOfA mainTools (aroundOfA succeeding) before :=
  (contained_building hw hwrites).code

theorem toolchainRepeats_mainTools (hw : before.tree.WellFormed) (hlater : later.tree.WellFormed)
    (hwrites : MainCallWrites succeeding before) (hwrites' : MainCallWrites succeeding later) :
    ToolchainRepeats planOfA mainTools (aroundOfA succeeding) before later where
  linked := rfl
  optimized _ := rfl
  code l defns hlinked hoptimized := by
    have hcode := generatesUnits_mainTools hw hwrites l defns hlinked hoptimized
    have hcode' := generatesUnits_mainTools hlater hwrites' l defns hlinked hoptimized
    -- such a toolchain links and optimizes nothing
    obtain rfl : Linked.ofLists [] [] [] = l := Except.ok.inj hlinked
    obtain rfl : [] = defns := Except.ok.inj hoptimized
    have hgoal : goalOf [] (.parse "/w/main.ll") = ["w", "main.ll"] := by decide
    have hstamp : ∀ {start : World}, MainCallWrites succeeding start → ∀ {stamps v},
        perform (Units.beforeCode planOfA) (aroundOfA succeeding)
          (mainCall succeeding start).before = (.ok stamps, v) →
        ((mainCall succeeding start).treeFrom v).stamp? (goalOf [] (.parse "/w/main.ll")) ≠
          v.tree.stamp? (goalOf [] (.parse "/w/main.ll")) := by
      intro start hstart stamps v hv
      rw [MainCallWrites, hv] at hstart
      rw [hgoal]
      exact hstart
    intro stamps v stamps' v' hv hv'
    have htools : (mainCall succeeding before).tools.generate =
        (Units.toolsWriting (.parse "/w/main.ll") (.ok ())).generate := rfl
    exact sameCode_of_writing htools (hcode _ _ hv).wellFormed (hcode' _ _ hv').wellFormed
      (hstamp hwrites hv) (hstamp hwrites' hv')

/-- A new copy of the archive with one source. -/
def filledOfA : World :=
  (perform (makeDirectories planOfA.libraryDirectory >>= fun _ =>
    fill planOfA.libraryDirectory archiveOfA) (.still []) (.ofTree diskOfA)).2

theorem isFilled_filledOfA :
    Filled (Surroundings.still []).unpacker planOfA.libraryDirectory archiveOfA filledOfA.tree := by
  have hlib : planOfA.libraryDirectory.isAbsolute = true := by decide
  have habsent : diskOfA.node? (goalOf [] planOfA.libraryDirectory) = none := by decide
  have hbare : Bare planOfA.libraryDirectory (World.ofTree diskOfA).tree :=
    bare_of_absent fun way =>
      not_isOccupied_iff.1 (not_isOccupied_below wellFormed_diskOfA habsent way)
  have hok : (perform (makeDirectories planOfA.libraryDirectory >>= fun _ =>
      fill planOfA.libraryDirectory archiveOfA) (.still []) (.ofTree diskOfA)).1 = .ok () := by
    decide +kernel
  obtain ⟨_, v, hmade, hfilled⟩ := perform_bind_eq_ok.1
    (Prod.ext hok (rfl : _ = filledOfA))
  exact ⟨_, v, filledOfA, rfl, prepared_of_makeDirectories hlib wellFormed_diskOfA hbare hmade,
    hfilled, rfl⟩

theorem archiveApart_ofA :
    ArchiveApart planOfA mainTools (aroundOfA succeeding) (.ofTree diskOfA) := by
  intro l defns units v f t hgenerated hf ht
  have hlib : planOfA.libraryDirectory.isAbsolute = true := by decide
  obtain rfl : Linked.ofLists [] [] [] = l := Except.ok.inj hgenerated.linked
  obtain rfl : [] = defns := Except.ok.inj hgenerated.optimized
  obtain rfl : [.parse "/w/main.ll"] = units := by
    have hunits : (mainCall succeeding (.ofTree diskOfA)).outcome.toOption =
        some [.parse "/w/main.ll"] := by
      decide +kernel
    rw [show (mainCall succeeding (.ofTree diskOfA)).outcome = .ok units from
      hgenerated.outcome_codeCall] at hunits
    exact (Option.some.inj hunits).symm
  have hbytes : f.bytes = archiveOfA := by
    have harchive : (diskOfA.file? ["a.jar"]).map File.bytes = some archiveOfA := by
      decide
    rw [file?, show diskOfA.node? ["a.jar"] = _ from hf] at harchive
    exact Option.some.inj harchive
  rw [hbytes] at ht
  have hnode := ht.node?_eq hlib isFilled_filledOfA
  refine ⟨fun way hunit hocc => ?_, fun u hu hinside => ?_, fun src hsrc hfile hother => ?_⟩
  · have hnone : Units.unitWays filledOfA.tree (goalOf [] planOfA.libraryDirectory) = [] := by
      decide +kernel
    rw [isOccupied_congr (hnode way)] at hocc
    exact absurd (hnone ▸ Units.mem_unitWays.2 ⟨hunit, hocc⟩) (by simp)
  · obtain rfl := List.mem_singleton.1 hu
    exact absurd hinside (by decide)
  · have hsources : sourceWays filledOfA.tree (goalOf [] planOfA.libraryDirectory) = [["a.c"]] := by
      decide +kernel
    obtain ⟨_, hcopied⟩ := isFilled_filledOfA.copied hlib
    have hmem := (mem_sourceWays hcopied.wellFormed).2 ⟨hsrc, isFile_congr (hnode src) ▸ hfile⟩
    rw [hsources] at hmem
    obtain rfl := List.mem_singleton.1 hmem
    exact absurd (by decide) hother

/-- The world after a first build. -/
def afterBuild (t : FileTree) : World :=
  (perform (build planOfA mainTools) (aroundOfA succeeding) (.ofTree t)).2

theorem toolsWrite_ofA : ToolsWrite (aroundOfA succeeding) planOfA :=
  toolsWrite_outputTool rfl (fun _ => rfl) (by decide) (by decide)
    (by decide) (by simp [planOfA])

/-- The source of the library is compiled by the first build only. -/
theorem source_compiled_once :
    ∃ result again later', perform (build planOfA mainTools) (aroundOfA succeeding)
        (.ofTree diskOfA) = (.ok result, afterBuild diskOfA) ∧
      perform (build planOfA mainTools) (aroundOfA succeeding) (afterBuild diskOfA) =
        (.ok again, later') ∧
      result.library.compiled = [.parse "/w/lib/a.c.o"] ∧ again.library.compiled = [] ∧
      again.units = result.units := by
  obtain ⟨hcompiled, hbuilt, hwrites, hwrites'⟩ :
      (perform (build planOfA mainTools) (aroundOfA succeeding)
        (.ofTree diskOfA)).1.toOption.map (fun r => r.library.compiled) =
          some [.parse "/w/lib/a.c.o"] ∧
      (afterBuild diskOfA).tree.WellFormed ∧ MainCallWrites succeeding (.ofTree diskOfA) ∧
      MainCallWrites succeeding (afterBuild diskOfA) := by
    decide +kernel
  rcases hbuild : perform (build planOfA mainTools) (aroundOfA succeeding) (.ofTree diskOfA) with
    ⟨fault | result, w'⟩
  · rw [hbuild] at hcompiled
    cases hcompiled
  · rw [hbuild] at hcompiled
    have hafter : afterBuild diskOfA = w' := congrArg Prod.snd hbuild
    have hcwd : diskOfA.isDirectory [] = true := isDirectory_iff.2 (node?_nil _)
    obtain ⟨_, _, _, _, _, _, _, _, again, later', hagain, -, -, -, -, hunits, -, hnone⟩ :=
      rebuild_repeats (by decide) wellFormed_diskOfA hcwd
        (.of_absent wellFormed_diskOfA hcwd (by decide)) toolsWrite_ofA archiveApart_ofA
        (generatesUnits_mainTools wellFormed_diskOfA hwrites)
        (generatesUnits_mainTools hbuilt hwrites')
        (toolchainRepeats_mainTools wellFormed_diskOfA hbuilt hwrites hwrites') hbuild
        (congrArg World.tree hafter)
    exact ⟨result, again, later', hafter ▸ rfl, hagain, Option.some.inj hcompiled, hnone, hunits⟩

/-- A disk with an archive that ships the file `x.ll` and nothing else. -/
def diskShippingUnit : FileTree :=
  FileTree.empty.writeFile ["a.jar"]
    [80, 75, 3, 4, 20, 0, 0, 0, 0, 0, 0, 0, 33, 0, 0, 0, 0, 0, 0, 0, 0, 0, 0, 0, 0, 0, 4, 0, 0, 0,
      120, 46, 108, 108, 80, 75, 1, 2, 20, 3, 20, 0, 0, 0, 0, 0, 0, 0, 33, 0, 0, 0, 0, 0, 0, 0, 0,
      0, 0, 0, 0, 0, 4, 0, 0, 0, 0, 0, 0, 0, 0, 0, 0, 0, 128, 1, 0, 0, 0, 0, 120, 46, 108, 108, 80,
      75, 5, 6, 0, 0, 0, 0, 1, 0, 1, 0, 50, 0, 0, 0, 34, 0, 0, 0, 0, 0]

/-- What the archive ships is taken for a unit by the second build, although all tools and the
toolchain do again what they did. -/
theorem shipped_unit_joins_second_build :
    diskShippingUnit.node? ["w"] = none ∧ ToolsWrite (aroundOfA succeeding) planOfA ∧
      ToolchainRepeats planOfA mainTools (aroundOfA succeeding) (.ofTree diskShippingUnit)
        (afterBuild diskShippingUnit) ∧
      (perform (build planOfA mainTools) (aroundOfA succeeding)
        (.ofTree diskShippingUnit)).1.toOption.map Result.units = some [.parse "/w/main.ll"] ∧
      (perform (build planOfA mainTools) (aroundOfA succeeding)
        (afterBuild diskShippingUnit)).1.toOption.map Result.units =
          some [.parse "/w/lib/x.ll", .parse "/w/main.ll"] := by
  obtain ⟨hw, hbuilt, hwrites, hwrites', hunits⟩ : diskShippingUnit.WellFormed ∧
      (afterBuild diskShippingUnit).tree.WellFormed ∧
      MainCallWrites succeeding (.ofTree diskShippingUnit) ∧
      MainCallWrites succeeding (afterBuild diskShippingUnit) ∧
      (perform (build planOfA mainTools) (aroundOfA succeeding)
        (.ofTree diskShippingUnit)).1.toOption.map Result.units = some [.parse "/w/main.ll"] ∧
      (perform (build planOfA mainTools) (aroundOfA succeeding)
        (afterBuild diskShippingUnit)).1.toOption.map Result.units =
          some [.parse "/w/lib/x.ll", .parse "/w/main.ll"] := by
    decide +kernel
  exact ⟨by decide, toolsWrite_ofA, toolchainRepeats_mainTools hw hbuilt hwrites hwrites',
    hunits⟩

end Twice

end StagedBuild.Build
