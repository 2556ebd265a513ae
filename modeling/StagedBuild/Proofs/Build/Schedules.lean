import StagedBuild.Proofs.Build.FailStop
import StagedBuild.Proofs.Build.ObjectPlaces
import StagedBuild.Proofs.NativeLibrary.Alike
import StagedBuild.Proofs.Pool.Outputs
import StagedBuild.Proofs.Units.Found

/-!
Builds whose compilers run in different orders. A build does not show in which order its compilers
ended, how many of them ran at a time, or in which order its libraries were listed: up to the final
link the disk is the same, and so is the command of that link.
-/

namespace StagedBuild.Build

open Action FileTree Disk NativeLibrary Manifest StageResults

/-- Two worlds in which the disks have the same entries and the same steps were made, in any
order. -/
structure SameSoFar (around : Surroundings) (w w' : World) : Prop where
  nodes : SameNodes w.tree w'.tree
  steps : (w.steps around).Perm (w'.steps around)

/-- Two actions end alike: both give the same, on well-formed disks, or both end in a fault. -/
structure EndAlike {α : Type} (around : Surroundings) (r r' : Except Fault α × World) :
    Prop where
  outcome : r.1.toOption = r'.1.toOption
  after : SameSoFar around r.2 r'.2
  wellFormed : ∀ a, r.1 = .ok a → r.2.tree.WellFormed

variable {around : Surroundings} {plan : Plan} {tools tools' : IrTools} {w v w' v' : World}
  {schedule : World → Nat → Nat → Schedule} {jobs : Int}

namespace SameSoFar

theorem refl (around : Surroundings) (w : World) : SameSoFar around w w :=
  ⟨fun _ => rfl, .rfl⟩

theorem of_quiet (h : SameSoFar around w v) (hw : Quiet w w') (hv : Quiet v v') :
    SameSoFar around w' v' where
  nodes := by
    rw [hw.2, hv.2]
    exact h.nodes
  steps := by
    rw [hw.steps_eq, hv.steps_eq]
    exact h.steps

end SameSoFar

namespace EndAlike

variable {α β : Type} {around₁ around₂ : Surroundings}

theorem refl (around : Surroundings) {r : Except Fault α × World}
    (hwf : ∀ a, r.1 = .ok a → r.2.tree.WellFormed) : EndAlike around r r :=
  ⟨rfl, .refl around r.2, hwf⟩

theorem wellFormed_of_ok {r r' : Except Fault α × World} {a : α} (h : EndAlike around r r')
    (hr : r = (.ok a, w)) : w.tree.WellFormed := by
  subst hr
  exact h.wellFormed a rfl

theorem error_or_ok {r r' : Except Fault α × World} (h : EndAlike around r r') :
    (∃ fault fault', r = (.error fault, r.2) ∧ r' = (.error fault', r'.2)) ∨
      ∃ a, r = (.ok a, r.2) ∧ r' = (.ok a, r'.2) := by
  obtain ⟨outcome, v⟩ := r
  obtain ⟨outcome', v'⟩ := r'
  have houtcome := h.outcome
  cases outcome with
  | error fault =>
      cases outcome' with
      | error fault' => exact .inl ⟨fault, fault', rfl, rfl⟩
      | ok => cases houtcome
  | ok a =>
      cases outcome' with
      | error => cases houtcome
      | ok => exact .inr ⟨a, rfl, by rw [Option.some.inj houtcome]⟩

theorem bind {action action' : Action α} {next next' : α → Action β}
    (h : EndAlike around (perform action around₁ w) (perform action' around₂ w'))
    (hnext : ∀ a v v', perform action around₁ w = (.ok a, v) →
      perform action' around₂ w' = (.ok a, v') → SameSoFar around v v' →
        EndAlike around (perform (next a) around₁ v) (perform (next' a) around₂ v')) :
    EndAlike around (perform (action >>= next) around₁ w)
      (perform (action' >>= next') around₂ w') := by
  rcases h.error_or_ok with ⟨fault, fault', hp, hp'⟩ | ⟨a, hp, hp'⟩
  · rw [perform_bind_error hp, perform_bind_error hp']
    exact ⟨rfl, h.after, nofun⟩
  · rw [perform_bind_ok hp, perform_bind_ok hp']
    exact hnext a _ _ hp hp' h.after

end EndAlike

section Calls

variable {α β : Type} {call : α → Invocation} {toFault : α → ToolResult → BuildFault}
  {items : List α} {b : β} {answered answered' : List (Pool.Answered α)}
  {r r' : Except Fault β × World}

/-- How calls end: all succeed, or they fail. -/
def CallsEnd (call : α → Invocation) (toFault : α → ToolResult → BuildFault) (b : β)
    (answered : List (Pool.Answered α)) (outcome : Except Fault β) : Prop :=
  (∀ a ∈ answered, a.reply.isSuccess = true) ∧ outcome = .ok b ∨
    ∃ fault, FailsWith call toFault answered fault ∧ outcome = .error fault

/-- Calls for the same items that leave each other alone end alike in every order. -/
theorem endAlike_of_ranAll (hran : Pool.RanAll around call w answered r.2)
    (hran' : Pool.RanAll around call v answered' r'.2) (place : α → Location)
    (objects : Location → Prop) (hcommand : ∀ item, (call item).command ≠ [])
    (hsame : SameSoFar around w v)
    (hwf : w.tree.WellFormed)
    (hitems : (answered.map Pool.Answered.item).Perm items)
    (hitems' : (answered'.map Pool.Answered.item).Perm items)
    (hend : CallsEnd call toFault b answered r.1) (hend' : CallsEnd call toFault b answered' r'.1)
    (hseparate : ∀ item ∈ items, Separate around objects (call item) (place item))
    (hobjects : ∀ item ∈ items, objects (place item)) (hplaces : (items.map place).Nodup) :
    EndAlike around r r' ∧ ∀ q, r.2.tree.isDirectory q = w.tree.isDirectory q := by
  have hitem : ∀ a ∈ answered, a.item ∈ items := fun a ha =>
    hitems.subset (List.mem_map_of_mem ha)
  have hseparate' : ∀ a ∈ answered, Separate around objects (call a.item) (place a.item) :=
    fun a ha => hseparate _ (hitem a ha)
  obtain ⟨hwf', hchanged⟩ := hran.confined place
    (fun a ha => (hseparate' a ha).confined) hwf
  obtain ⟨hnodes, hreplies⟩ := hran.agree hran' hsame.nodes (hitems.trans hitems'.symm)
    hseparate' (fun a ha => hobjects _ (hitem a ha))
    (by
      have hperm := hitems.map place
      rw [List.map_map] at hperm
      exact hperm.nodup_iff.2 hplaces) hwf
  have hsteps : (answered.map (Pool.Answered.step call)).Perm
      (answered'.map (Pool.Answered.step call)) := by
    have hmap := hreplies.map fun e => Step.tool (call e.1) e.2
    rwa [List.map_map, List.map_map] at hmap
  have hsuccess : (∀ a ∈ answered, a.reply.isSuccess = true) ↔
      ∀ a ∈ answered', a.reply.isSuccess = true := by
    have hmem : ∀ {l l' : List (Pool.Answered α)},
        (l.map fun a => (a.item, a.reply)).Perm (l'.map fun a => (a.item, a.reply)) →
        (∀ a ∈ l, a.reply.isSuccess = true) → ∀ a ∈ l', a.reply.isSuccess = true := by
      intro l l' hperm hall a ha
      obtain ⟨c, hc, heq⟩ := List.mem_map.1
        (hperm.symm.subset (List.mem_map_of_mem (f := fun a => (a.item, a.reply)) ha))
      rw [← (Prod.mk.inj heq).2]
      exact hall c hc
    exact ⟨hmem hreplies, hmem hreplies.symm⟩
  refine ⟨⟨?_, ⟨hnodes, ?_⟩, fun _ _ => hwf'⟩, hchanged.isDirectory_eq⟩
  · rcases hend with ⟨hall, hok⟩ | ⟨fault, hfails, herror⟩ <;>
      rcases hend' with ⟨hall', hok'⟩ | ⟨fault', hfails', herror'⟩
    · rw [hok, hok']
    · obtain ⟨a, ha, hnot⟩ := hfails'.exists_failed hcommand
      exact absurd (hsuccess.1 hall a ha) hnot
    · obtain ⟨a, ha, hnot⟩ := hfails.exists_failed hcommand
      exact absurd (hsuccess.2 hall' a ha) hnot
    · rw [herror, herror']
      rfl
  · rw [hran.steps_eq, hran'.steps_eq]
    exact hsame.steps.append hsteps

end Calls

section Stages

variable (schedule jobs)

variable {ways srcs : List Location} {links links' : List String} {p : Preparation}

theorem callsEnd_of_cases {α β : Type} {call : α → Invocation}
    {toFault : α → ToolResult → BuildFault} {b : β} {answered : List (Pool.Answered α)}
    {r : Except Fault β × World}
    (h : (∀ a ∈ answered, a.reply.isSuccess = true) ∧ r = (.ok b, w') ∨
      ∃ fault, FailsWith call toFault answered fault ∧ r = (.error fault, w')) :
    CallsEnd call toFault b answered r.1 ∧ r.2 = w' := by
  rcases h with ⟨hall, rfl⟩ | ⟨fault, hfails, rfl⟩
  · exact ⟨.inl ⟨hall, rfl⟩, rfl⟩
  · exact ⟨.inr ⟨fault, hfails, rfl⟩, rfl⟩

theorem compileEach_agree (hsame : SameSoFar around w v) (hwf : w.tree.WellFormed)
    (hways : Units.IsUnitListing ways)
    (hseparate : ∀ way ∈ ways,
      Separate around (IsObject around.directory plan) (unitCall plan (plan.workdir.descend way))
        (placeIn around.directory plan (plan.workdir.descend way).objectPath)) :
    EndAlike around (perform (Units.compileEach plan (ways.map plan.workdir.descend)) around w)
        (perform (Units.compileEach { plan with jobs := jobs } (ways.map plan.workdir.descend))
          { around with schedule := schedule } v) ∧
      ∀ q, (perform (Units.compileEach plan (ways.map plan.workdir.descend)) around w
        ).2.tree.isDirectory q = w.tree.isDirectory q := by
  obtain ⟨answered, w₁, hran, hitems, hcases⟩ :=
    perform_compileEach plan around (ways.map plan.workdir.descend) w
  obtain ⟨answered', v₁, hran', hitems', hcases'⟩ :=
    perform_compileEach { plan with jobs := jobs } { around with schedule := schedule }
      (ways.map plan.workdir.descend) v
  obtain ⟨hend, rfl⟩ := callsEnd_of_cases hcases
  obtain ⟨hend', rfl⟩ := callsEnd_of_cases hcases'
  refine endAlike_of_ranAll hran (hran'.congr rfl)
    (fun u => placeIn around.directory plan u.objectPath) (IsObject around.directory plan)
    (fun u => by simp [unitCall, Units.command]) hsame hwf hitems hitems' hend hend' ?_ ?_
    (unitObjects_nodup _ _ hways)
  · exact List.forall_mem_map.2 hseparate
  · exact List.forall_mem_map.2 fun way hway => isObject_unit hways hway

theorem compilePending_agree (hsame : SameSoFar around w v) (hwf : w.tree.WellFormed)
    (hsrcs : IsListing srcs) (hpending : p.pending.Sublist (sourcesAt plan.libraryDirectory srcs))
    (hseparate : ∀ src ∈ srcs, Separate around (IsObject around.directory plan)
      (sourceCall plan (sourceAt plan.libraryDirectory (plan.libraryDirectory.descend src)))
      (placeIn around.directory plan (sourceAt plan.libraryDirectory
        (plan.libraryDirectory.descend src)).objectPath)) :
    EndAlike around (perform (compilePending plan p) around w)
      (perform (compilePending { plan with jobs := jobs } p)
        { around with schedule := schedule } v) := by
  obtain ⟨answered, w₁, hran, hitems, hcases⟩ := perform_compilePending plan around p w
  obtain ⟨answered', v₁, hran', hitems', hcases'⟩ :=
    perform_compilePending { plan with jobs := jobs } { around with schedule := schedule } p v
  obtain ⟨hend, rfl⟩ := callsEnd_of_cases hcases
  obtain ⟨hend', rfl⟩ := callsEnd_of_cases hcases'
  have hcall : sourceCall { plan with jobs := jobs } = sourceCall plan := rfl
  rw [hcall] at hran' hend'
  have hlisted : ∀ s ∈ p.pending, ∃ src ∈ srcs,
      sourceAt plan.libraryDirectory (plan.libraryDirectory.descend src) = s := fun s hs =>
    List.mem_map.1 (hpending.subset hs)
  refine And.left (endAlike_of_ranAll hran (hran'.congr rfl)
    (fun s => placeIn around.directory plan s.objectPath) (IsObject around.directory plan)
    (sourceCall_ne_nil plan) hsame hwf hitems hitems' hend hend' (fun s hs => ?_) (fun s hs => ?_)
    ((sourceObjects_nodup _ _ hsrcs).sublist (hpending.map _)))
  · obtain ⟨src, hsrc, rfl⟩ := hlisted s hs
    exact hseparate src hsrc
  · obtain ⟨src, hsrc, rfl⟩ := hlisted s hs
    exact isObject_source (hsrcs.isSourceWay src hsrc)

theorem prepare_agree (hsame : SameSoFar around w v)
    (hlinks : ∀ name, name ∈ links ↔ name ∈ links')
    (hapart : LibraryApart around.directory plan) (hwf : w.tree.WellFormed)
    (hcwd : w.tree.isDirectory around.directory = true) :
    EndAlike around (perform (prepare plan links) around w)
      (perform (prepare { plan with jobs := jobs } links')
        { around with schedule := schedule } v) := by
  rw [prepare_congr plan jobs hlinks]
  have hread : ReadAlike around { around with schedule := schedule } := ⟨rfl, rfl, rfl, rfl⟩
  obtain ⟨houtcome, hnodes⟩ := alike_prepare hread plan links w v hsame.nodes
  obtain ⟨dir, hstart, hout, hdir'⟩ := hapart.exists_start hcwd
  refine ⟨congrArg Except.toOption houtcome, ⟨hnodes, ?_⟩, fun _ _ =>
    (sturdy_prepare hstart links w hout hwf hdir' trivial).1⟩
  rw [(silent_prepare around plan links w).steps_eq,
    (silent_prepare { around with schedule := schedule } plan links v).steps_eq]
  exact hsame.steps

end Stages

/-- Two results of linking list the same, in any order. -/
structure SameLinked (l l' : Linked) : Prop where
  defns : l'.defns = l.defns
  links : l.links.Perm l'.links
  unresolved : l.unresolved.Perm l'.unresolved

/-- Two answers of the toolchain list the same, or both are faults. -/
inductive SameAnswer : Except Fault Linked → Except Fault Linked → Prop
  | error (fault fault' : Fault) : SameAnswer (.error fault) (.error fault')
  | ok {l l' : Linked} : SameLinked l l' → SameAnswer (.ok l) (.ok l')

theorem SameAnswer.error_or_ok {answer answer' : Except Fault Linked}
    (h : SameAnswer answer answer') :
    (∃ fault fault', answer = .error fault ∧ answer' = .error fault') ∨
      ∃ l l', answer = .ok l ∧ answer' = .ok l' ∧ SameLinked l l' := by
  cases h with
  | error fault fault' => exact .inl ⟨fault, fault', rfl, rfl⟩
  | ok hsame => exact .inr ⟨_, _, rfl, rfl, hsame⟩

/-- Two toolchains do the same for two plans. What they list they may list in any order. -/
structure SameTools (plan plan' : Plan) (tools tools' : IrTools) : Prop where
  link : ∀ v, SameAnswer (tools.link plan v) (tools'.link plan' v)
  optimize : ∀ l l' v, SameLinked l l' → tools'.optimize plan' l' v = tools.optimize plan l v
  generate : ∀ defns v, tools'.generate plan' defns v = tools.generate plan defns v

/-- A build whose compilers leave each other alone. Each of them writes its object and reads no
other; the toolchain leaves a disk, and the manifest of the library was written by unpacking. -/
structure LeavesAlone (plan : Plan) (tools : IrTools) (around : Surroundings) (w : World) :
    Prop where
  wellFormed : w.tree.WellFormed
  directory : w.tree.isDirectory around.directory = true
  apart : LibraryApart around.directory plan
  code : ∀ l defns, linkAnswer plan tools (w.askedToLink plan) = .ok l →
    tools.optimize plan l (w.askedToOptimize plan l) = .ok defns →
    (codeCall plan tools around w l defns).LeavesDisk
  manifest : ∀ l defns units answered v,
    UnitsCompiled plan tools around w l defns units answered v →
    ManifestWritten around plan (v.announcing plan .compileLibrary)
  units : ∀ way, Units.IsUnitWay way → (∀ s ∈ way, isEntryName s = true) →
    Separate around (IsObject around.directory plan) (unitCall plan (plan.workdir.descend way))
      (placeIn around.directory plan (plan.workdir.descend way).objectPath)
  sources : ∀ src, IsSourceWay src → Separate around (IsObject around.directory plan)
    (sourceCall plan (sourceAt plan.libraryDirectory (plan.libraryDirectory.descend src)))
    (placeIn around.directory plan (sourceAt plan.libraryDirectory
      (plan.libraryDirectory.descend src)).objectPath)

section Sequence

/-- Everything in a build from the optimization to the final link. -/
def beforeLink (plan : Plan) (tools : IrTools) (l : Linked) : Action Result := do
  let defns ← announced plan .optimize (Intermediate.optimize plan tools l)
  let units ← announced plan .generate (Units.generate plan tools defns)
  let objects ← announced plan .compileUnits (Units.compileEach plan units)
  let library ← announced plan .compileLibrary (NativeLibrary.assemble plan l.links)
  return ⟨plan.outputPath, units, objects, library, Stage.all⟩

/-- The final link of what has been compiled. -/
def finalLink (plan : Plan) (links : List String) (result : Result) : Action Result := do
  let output ← announced plan .linkExecutable
    (Executable.link plan result.unitObjects result.library.objects links)
  return { result with output := output }

/-- The call that links what has been compiled. -/
def linkCall (plan : Plan) (links : List String) (result : Result) : Invocation :=
  ⟨Executable.command plan result.unitObjects result.library.objects links, some plan.workdir⟩

theorem build_eq_beforeLink (plan : Plan) (tools : IrTools) : build plan tools =
    announced plan .linkIr (Intermediate.link plan tools) >>= fun l =>
      beforeLink plan tools l >>= finalLink plan l.links := by
  rw [build_eq_inSequence, inSequence]
  simp only [beforeLink, finalLink, bind_assoc, pure_bind]

/-- A link lists its libraries in order, so the order in which they are given does not count. -/
theorem libraries_congr (plan : Plan) {links links' : List String} (h : links.Perm links') :
    Executable.libraries plan links' = Executable.libraries plan links := by
  have hsorted : ∀ xs : List String,
      (xs.mergeSort fun a b => decide (a ≤ b)).Pairwise fun a b => a ≤ b := fun xs =>
    (List.pairwise_mergeSort
      (fun a b c hab hbc => by
        simpa using String.le_trans (by simpa using hab) (by simpa using hbc))
      (fun a b => by simpa using String.le_total a b) xs).imp of_decide_eq_true
  have hperm := ((List.mergeSort_perm links' fun a b => decide (a ≤ b)).trans h.symm).trans
    (List.mergeSort_perm links fun a b => decide (a ≤ b)).symm
  rw [Executable.libraries, Executable.libraries,
    hperm.eq_of_pairwise (fun _ _ _ _ hab hba => String.le_antisymm hab hba) (hsorted links')
      (hsorted links)]

theorem linkCall_congr (jobs : Int) (plan : Plan) (result : Result) {links links' : List String}
    (h : links.Perm links') :
    linkCall { plan with jobs := jobs } links' result = linkCall plan links result := by
  unfold linkCall Executable.command
  rw [show Executable.libraries { plan with jobs := jobs } links' =
    Executable.libraries plan links' from rfl, libraries_congr plan h]
  rfl

end Sequence

section Agree

variable (schedule jobs)

variable {l l' : Linked} {links links' : List String}

theorem assemble_agree (hsame : SameSoFar around w v) (hlinks : links.Perm links')
    (hapart : LibraryApart around.directory plan) (hwf : w.tree.WellFormed)
    (hcwd : w.tree.isDirectory around.directory = true) (hmanifest : ManifestWritten around plan w)
    (hseparate : ∀ src, IsSourceWay src → Separate around (IsObject around.directory plan)
      (sourceCall plan (sourceAt plan.libraryDirectory (plan.libraryDirectory.descend src)))
      (placeIn around.directory plan (sourceAt plan.libraryDirectory
        (plan.libraryDirectory.descend src)).objectPath)) :
    EndAlike around (perform (assemble plan links) around w)
      (perform (assemble { plan with jobs := jobs } links')
        { around with schedule := schedule } v) := by
  rw [assemble_eq, assemble_eq]
  have hprepare := prepare_agree schedule jobs hsame
    (fun name => hlinks.mem_iff) hapart hwf hcwd
  refine hprepare.bind fun p w₁ v₁ hp _ hsame₁ => ?_
  obtain ⟨dir, hstart, hout, hdir⟩ := hapart.exists_start hcwd
  obtain ⟨srcs, _, hsrcs, -, hincluded⟩ :=
    listing_of_perform_prepare hstart hout hwf hdir hmanifest hp
  have hwf₁ := hprepare.wellFormed_of_ok hp
  have hneeded := hsrcs.filter (isNeededAt plan.libraryDirectory plan.gc links)
  refine compilePending_agree schedule jobs hsame₁ hwf₁ hneeded ?_ fun src hsrc =>
    hseparate src (hneeded.isSourceWay src hsrc)
  rw [← hincluded, pending_of_prepare hp]
  exact List.filter_sublist

theorem Generated.unitsCompiled {defns : List Definition} {units objects : List Path}
    (h : Generated plan tools around w l defns units v)
    (hp : perform (announced plan .compileUnits (Units.compileEach plan units)) around v =
      (.ok objects, v')) :
    ∃ answered, UnitsCompiled plan tools around w l defns units answered v' := by
  rw [perform_announced] at hp
  obtain ⟨answered, u, hran, hitems, ⟨hall, hok⟩ | ⟨fault, -, herror⟩⟩ :=
    perform_compileEach plan around units (v.announcing plan .compileUnits)
  · rw [hok] at hp
    cases hp
    exact ⟨answered, ⟨v, h, hran, hitems⟩, hall⟩
  · rw [herror] at hp
    cases hp

theorem compile_agree {defns : List Definition} {units : List Path}
    (h : LeavesAlone plan tools around w) (hlinks : l.links.Perm links')
    (hgenerated : Generated plan tools around w l defns units v) :
    EndAlike around
      (perform (do
        let objects ← announced plan .compileUnits (Units.compileEach plan units)
        let library ← announced plan .compileLibrary (NativeLibrary.assemble plan l.links)
        return (⟨plan.outputPath, units, objects, library, Stage.all⟩ : Result)) around v)
      (perform (do
        let objects ← announced { plan with jobs := jobs } .compileUnits
          (Units.compileEach { plan with jobs := jobs } units)
        let library ← announced { plan with jobs := jobs } .compileLibrary
          (NativeLibrary.assemble { plan with jobs := jobs } links')
        return (⟨plan.outputPath, units, objects, library, Stage.all⟩ : Result))
        { around with schedule := schedule } v) := by
  have hcode := h.code l defns hgenerated.linked hgenerated.optimized
  have hafter : (codeCall plan tools around w l defns).after = v :=
    congrArg Prod.snd hgenerated.generated
  obtain ⟨hwf, hcwd, ways, hways, rfl⟩ := hcode.found_of_ok
    (congrArg Prod.fst hgenerated.generated)
  rw [hafter] at hwf hcwd
  have htree := (v.quiet_announcing plan .compileUnits).2
  obtain ⟨hunits, hdirs⟩ := compileEach_agree schedule jobs
    (.refl around (v.announcing plan .compileUnits)) (htree ▸ hwf) hways fun way hway =>
      h.units way (hways.isUnitWay way hway) (hways.named way hway)
  rw [← perform_announced, htree] at hdirs
  rw [← perform_announced, ← perform_announced] at hunits
  refine hunits.bind fun objects w₁ v₁ hp _ hsame => ?_
  have hwf₁ := hunits.wellFormed_of_ok hp
  rw [hp] at hdirs
  obtain ⟨answered, hcompiled⟩ := hgenerated.unitsCompiled hp
  have htree₁ := (w₁.quiet_announcing plan .compileLibrary).2
  have hlibrary := assemble_agree schedule jobs
    (hsame.of_quiet (w₁.quiet_announcing plan .compileLibrary)
      (v₁.quiet_announcing plan .compileLibrary)) hlinks h.apart (htree₁ ▸ hwf₁)
    (htree₁ ▸ (hdirs _).trans hcwd) (h.manifest l defns _ answered w₁ hcompiled) h.sources
  rw [← perform_announced, ← perform_announced] at hlibrary
  refine hlibrary.bind fun library w₂ v₂ hp' _ hsame₂ => ⟨rfl, hsame₂, fun _ _ => ?_⟩
  exact hlibrary.wellFormed_of_ok hp'

theorem beforeLink_agree (h : LeavesAlone plan tools around w)
    (htools : SameTools plan { plan with jobs := jobs } tools tools') (hsame : SameLinked l l')
    (hlinked : linkAnswer plan tools (w.askedToLink plan) = .ok l) :
    EndAlike around (perform (beforeLink plan tools l) around (w.askedToLink plan))
      (perform (beforeLink { plan with jobs := jobs } tools' l')
        { around with schedule := schedule } (w.askedToLink plan)) := by
  have hoptimize : perform (announced { plan with jobs := jobs } .optimize
        (Intermediate.optimize { plan with jobs := jobs } tools' l'))
        { around with schedule := schedule } (w.askedToLink plan) =
      perform (announced plan .optimize (Intermediate.optimize plan tools l)) around
        (w.askedToLink plan) := by
    have hasked : w.askedToOptimize { plan with jobs := jobs } l' = w.askedToOptimize plan l := by
      unfold World.askedToOptimize
      rw [hsame.defns]
      rfl
    rw [perform_optimize, ← htools.optimize l l' _ hsame, ← hasked]
    exact perform_optimize { plan with jobs := jobs } tools' _ w l'
  unfold beforeLink
  rcases hp : perform (announced plan .optimize (Intermediate.optimize plan tools l)) around
    (w.askedToLink plan) with ⟨fault | defns, w₁⟩
  · rw [perform_bind_error hp, perform_bind_error (hoptimize.trans hp)]
    exact .refl around nofun
  rw [perform_bind_ok hp, perform_bind_ok (hoptimize.trans hp)]
  rw [perform_optimize] at hp
  obtain ⟨hoptimized, rfl⟩ := Prod.mk.inj hp
  have hgenerate : perform (announced { plan with jobs := jobs } .generate
        (Units.generate { plan with jobs := jobs } tools' defns))
        { around with schedule := schedule } (w.askedToOptimize plan l) =
      perform (announced plan .generate (Units.generate plan tools defns)) around
        (w.askedToOptimize plan l) := by
    rw [Units.generate_congr (htools.generate defns)]
    have hread : ReadAlike around { around with schedule := schedule } := ⟨rfl, rfl, rfl, rfl⟩
    obtain ⟨houtcome, hafter⟩ := Units.alike_generate hread plan tools defns _ _
      (Eq.refl ((w.askedToOptimize plan l).announcing plan .generate))
    rw [perform_announced, perform_announced]
    exact Prod.ext houtcome.symm hafter.symm
  rcases hp' : perform (announced plan .generate (Units.generate plan tools defns)) around
    (w.askedToOptimize plan l) with ⟨fault | units, w₂⟩
  · rw [perform_bind_error hp', perform_bind_error (hgenerate.trans hp')]
    exact .refl around nofun
  rw [perform_bind_ok hp', perform_bind_ok (hgenerate.trans hp')]
  rw [perform_announced] at hp'
  exact compile_agree schedule jobs h hsame.links ⟨hlinked, hoptimized, hp'⟩

theorem SameTools.linkAnswer (htools : SameTools plan { plan with jobs := jobs } tools tools')
    (v : World) : SameAnswer (linkAnswer plan tools v)
      (Build.linkAnswer { plan with jobs := jobs } tools' v) := by
  have hanswer := htools.link v
  unfold Build.linkAnswer
  generalize tools.link plan v = answer at hanswer ⊢
  generalize tools'.link { plan with jobs := jobs } v = answer' at hanswer ⊢
  cases hanswer with
  | error fault fault' => exact .error fault fault'
  | @ok l l' hsame =>
      have hopen : l.unresolved = [] ↔ l'.unresolved = [] :=
        ⟨fun heq => (heq ▸ hsame.unresolved).nil_eq.symm,
          fun heq => (heq ▸ hsame.unresolved).eq_nil⟩
      by_cases hnone : l.unresolved = []
      · simp only [hnone, hopen.1 hnone, if_true]
        exact .ok hsame
      · simp only [hnone, mt hopen.2 hnone, if_false]
        exact .error _ _

end Agree

end StagedBuild.Build
