import StagedBuild.Proofs.Build.FailStop
import StagedBuild.Proofs.Build.OutputTool
import StagedBuild.Proofs.NativeLibrary.Trusted

/-!
The objects that a build links. All runtime objects are there when the executable is linked. The
object of a unit is there unless the unit lies below the library and the library was made anew in
between: then the object goes away with the old library.
-/

namespace StagedBuild

open Action FileTree Disk NativeLibrary Manifest

namespace Build

variable {plan : Plan} {tools : IrTools} {around : Surroundings} {w v w' : World} {l : Linked}
  {defns : List Definition} {units : List Path} {answered : List (Pool.Answered Path)}
  {p : Preparation} {compiled : List (Pool.Answered Source)} {t t' : FileTree}

section Places

variable {cwd base way src : Location}

theorem not_codePlace_library (hne : way ≠ []) (hletter : lastLetter way ≠ some 'l') :
    ¬ Units.CodePlace cwd plan.workdir (goalOf cwd plan.libraryDirectory ++ way) := by
  rintro (hl | hrecord)
  · rw [lastLetter_append _ hne] at hl
    exact hletter hl
  · rw [goalOf_libraryDirectory, Units.recordAt, List.append_assoc] at hrecord
    have hlong := congrArg List.length (List.append_cancel_left hrecord)
    simp at hlong
    exact hne hlong

theorem not_objectPlace_of_lastLetter (hletter : lastLetter way ≠ some 'o') :
    ¬ Units.ObjectPlace base way := by
  rintro ⟨unit, -, rfl⟩
  rw [lastLetter_append _ (by simp [objectWay])] at hletter
  exact hletter (lastLetter_objectWay unit)

theorem not_objectPlace_source (hsrc : IsSourceWay src) :
    ¬ Units.ObjectPlace (goalOf cwd plan.workdir)
      (goalOf cwd plan.libraryDirectory ++ objectWay src) := by
  rintro ⟨unit, hunit, heq⟩
  rw [goalOf_libraryDirectory, List.append_assoc] at heq
  exact objectWay_unit_ne _ hunit hsrc (List.append_cancel_left heq).symm

theorem not_reworked_unit {unit : Location} (hunit : Units.IsUnitWay unit) :
    ¬ Reworked (goalOf cwd plan.libraryDirectory) (goalOf cwd plan.workdir ++ objectWay unit) := by
  rw [goalOf_libraryDirectory]
  rintro (hfile | ⟨src, hsrc, heq⟩)
  · have hletter := congrArg lastLetter hfile
    rw [fileAt, lastLetter_concat, lastLetter_append _ (by simp [objectWay]),
      lastLetter_objectWay] at hletter
    exact absurd hletter (by decide)
  · rw [List.append_assoc] at heq
    exact objectWay_unit_ne _ hunit hsrc (List.append_cancel_left heq)

end Places

theorem placeIn_source {src : Location} (habsolute : plan.workdir.isAbsolute = true)
    (cwd : Location) (hsrc : IsSourceWay src) :
    placeIn cwd plan (sourceAt plan.libraryDirectory
        (plan.libraryDirectory.descend src)).objectPath =
      goalOf cwd plan.libraryDirectory ++ objectWay src := by
  have hlib := isAbsolute_libraryDirectory habsolute
  rw [objectPath_sourceAt hsrc, placeIn_of_absolute (isAbsolute_descend_objectWay hlib hsrc),
    goalOf_descend_objectWay hsrc, objectAt, goalOf_of_absolute hlib cwd]

/-- Code generation and the compilers of units leave a library as trusted as it was. -/
theorem UnitsReady.trusted (h : UnitsReady around plan units t t')
    (habsolute : plan.workdir.isAbsolute = true) {t'' : FileTree}
    (hchanged : FilesChanged (Units.ObjectPlace (goalOf around.directory plan.workdir)) t' t'')
    (htrusted : Trusted plan.libraryDirectory t) : Trusted plan.libraryDirectory t'' := by
  have hlib := isAbsolute_libraryDirectory habsolute
  have hcode : ∀ {name : String}, lastLetter [name] ≠ some 'l' →
      ¬ Units.CodePlace around.directory plan.workdir
        (goalOf [] plan.libraryDirectory ++ [name]) := by
    intro name hletter
    rw [← goalOf_of_absolute hlib around.directory]
    exact not_codePlace_library (by simp) hletter
  have hobject : ∀ {name : String}, lastLetter [name] ≠ some 'o' →
      ¬ Units.ObjectPlace (goalOf around.directory plan.workdir)
        (goalOf [] plan.libraryDirectory ++ [name]) := by
    intro name hletter
    refine not_objectPlace_of_lastLetter ?_
    rwa [lastLetter_append _ (by simp)]
  exact (htrusted.of_spares h.spares (hcode (by decide)) (hcode (by decide))).of_spares
    (fun q hq => .inl (hchanged.node?_eq hq)) (hobject (by decide)) (hobject (by decide))

theorem wellFormed_of_perform_prepare {out : Except Fault Preparation}
    (habsolute : plan.workdir.isAbsolute = true) (hw : v.tree.WellFormed)
    (h : perform (prepare plan l.links) around v = (out, w')) : w'.tree.WellFormed := by
  have hlib := isAbsolute_libraryDirectory habsolute
  refine ((sturdy_prepare (.of_absolute hlib) l.links).of_perform h ?_ hw
    (isDirectory_iff.2 (node?_nil _)) trivial).1
  rw [goalOf_libraryDirectory]
  simp

section Library

variable (habsolute : plan.workdir.isAbsolute = true) (hv : v.tree.WellFormed)
  (htrusted : Trusted plan.libraryDirectory v.tree)
  (hprepare : perform (prepare plan l.links) around v = (.ok p, w'))

include habsolute hv htrusted hprepare

theorem placeIn_included {s : Source} (hs : s ∈ p.included) :
    ∃ src, IsSourceWay src ∧
      s = sourceAt plan.libraryDirectory (plan.libraryDirectory.descend src) ∧
      goalOf around.directory s.objectPath = placeIn around.directory plan s.objectPath ∧
      placeIn around.directory plan s.objectPath =
        goalOf around.directory plan.libraryDirectory ++ objectWay src := by
  have hlib := isAbsolute_libraryDirectory habsolute
  have hout : ¬ goalOf around.directory plan.libraryDirectory <+: [] := by
    rw [goalOf_libraryDirectory]
    simp
  obtain ⟨ways, u, hways, -, hincluded⟩ := listing_of_perform_prepare (.of_absolute hlib) hout hv
    (isDirectory_iff.2 (node?_nil _)) (htrusted.scanned hlib) hprepare
  rw [hincluded] at hs
  obtain ⟨src, hsrc, rfl⟩ := List.mem_map.1 hs
  have hsource := (hways.filter _).isSourceWay src hsrc
  refine ⟨src, hsource, rfl, ?_, placeIn_source habsolute _ hsource⟩
  have hpath := isAbsolute_descend_objectWay hlib hsource
  rw [objectPath_sourceAt hsource, placeIn_of_absolute hpath, goalOf_of_absolute hpath]

/-- Below the library the object of a unit is there if the copy of the archive was current, or if
the archive ships it; elsewhere it is still there. -/
theorem isOccupied_unit_of_prepare (hleads : LeadsToDirectory plan.workdir v.tree around.directory)
    {unit : Location} (hunit : Units.IsUnitWay unit)
    (hfile : v.tree.isFile (goalOf around.directory plan.workdir ++ objectWay unit) = true) :
    w'.tree.isOccupied (goalOf around.directory plan.workdir ++ objectWay unit) = true ↔
      ¬ goalOf around.directory plan.libraryDirectory <+:
          goalOf around.directory plan.workdir ++ objectWay unit ∨
        perform (copyOf plan).isFresh around v = (.ok true, v) ∨
        ∃ bytes, bytesAt plan.archive v.tree around.directory = .ok bytes ∧
          Ships around.unpacker plan.libraryDirectory bytes
            (goalOf around.directory plan.workdir ++ objectWay unit) := by
  have hlib := isAbsolute_libraryDirectory habsolute
  have hout : ¬ goalOf around.directory plan.libraryDirectory <+: [] := by
    rw [goalOf_libraryDirectory]
    simp
  have hocc := isOccupied_of_isFile hfile
  obtain ⟨v₁, hunpacked, hsame⟩ := node?_of_perform_prepare (.of_absolute hlib) hout hv
    (isDirectory_iff.2 (node?_nil _)) (htrusted.scanned hlib) hprepare
  rw [isOccupied_congr (hsame _ (not_reworked_unit hunit))]
  rcases hunpacked with ⟨rfl, hfresh⟩ | ⟨hstale, hrenew⟩
  · exact iff_of_true hocc (.inr (.inl hfresh))
  · obtain ⟨bytes, hbytes, hfilled⟩ := filled_of_perform_renew hlib hv hleads hrenew
    by_cases hbelow : goalOf around.directory plan.libraryDirectory <+:
        goalOf around.directory plan.workdir ++ objectWay unit
    · obtain ⟨way, hway⟩ := hbelow
      rw [← hway] at hocc ⊢
      rw [goalOf_of_absolute hlib] at hocc ⊢
      constructor
      · intro hthere
        exact .inr (.inr ⟨bytes, hbytes, (hfilled.ships_iff hlib way).2 hthere⟩)
      · rintro (hnot | hfresh | ⟨bytes', hbytes', hships⟩)
        · exact absurd (List.prefix_append _ _) hnot
        · rw [hstale] at hfresh
          cases hfresh
        · rw [hbytes] at hbytes'
          cases hbytes'
          exact (hfilled.ships_iff hlib way).1 hships
    · refine iff_of_true ?_ (.inl hbelow)
      rw [goalOf_of_absolute hlib] at hbelow
      have hplace : ∀ way, goalOf [] plan.libraryDirectory <+:
          goalOf around.directory plan.libraryDirectory ++ way := by
        rw [goalOf_of_absolute hlib around.directory]
        exact fun way => List.prefix_append _ way
      have hrenewing : Keeps around (Sparing (goalOf [] plan.libraryDirectory <+: ·))
          ((copyOf plan).renew writeManifest) := sparing_renew hplace
      exact Spares.isOccupied (hrenewing.of_perform hrenew) hbelow hocc

end Library

section Link

variable (habsolute : plan.workdir.isAbsolute = true) (hw : w.tree.WellFormed)
  (hcwd : w.tree.isDirectory around.directory = true)
  (htrusted : Trusted plan.libraryDirectory w.tree)
  (hcode : (codeCall plan tools around w l defns).WritesOnlyUnits)
  (hunits : ∀ u ∈ units,
    Delivers around (unitCall plan u) (placeIn around.directory plan u.objectPath))

include habsolute hw hcwd htrusted hcode hunits

theorem LibraryPrepared.start
    (h : LibraryPrepared plan tools around w l defns units answered p w') :
    ∃ v u, UnitsCompiled plan tools around w l defns units answered u ∧
      v = u.announcing plan .compileLibrary ∧
      perform (prepare plan l.links) around v = (.ok p, w') ∧
      v.tree.WellFormed ∧ LeadsToDirectory plan.workdir v.tree around.directory ∧
      Trusted plan.libraryDirectory v.tree ∧
      ∀ x ∈ units, v.tree.isFile (placeIn around.directory plan x.objectPath) = true ∧
        ∃ unit, Units.IsUnitWay unit ∧ placeIn around.directory plan x.objectPath =
          goalOf around.directory plan.workdir ++ objectWay unit := by
  obtain ⟨u, hcompiled, hprepare⟩ := h.prepared
  obtain ⟨t, hready, hwf, hchanged, hobjects⟩ :=
    hcompiled.ready hcode hw hcwd habsolute hunits
  have htree : (u.announcing plan .compileLibrary).tree = u.tree :=
    (u.quiet_announcing plan .compileLibrary).2
  refine ⟨_, u, hcompiled, rfl, hprepare, htree ▸ hwf, ?_, ?_, fun x hx => ⟨?_, ?_⟩⟩
  · rw [htree]
    exact hready.leads.mono fun loc hloc => (hchanged.isDirectory_eq loc).trans hloc
  · rw [htree]
    exact hready.trusted habsolute hchanged htrusted
  · rw [htree]
    exact hobjects x hx
  · obtain ⟨unit, hunit, -, -, hplace⟩ := hready.exists_way habsolute hx
    exact ⟨unit, hunit, hplace⟩

/-- What is linked in a build: every runtime object is there. The object of a unit is there if the
unit does not lie below the library, if the library was current when it was looked at, or if the
archive ships a file in this place. It is not there otherwise, because the library is cleared away
after the units have been compiled. -/
theorem objects_at_link
    (hsources : ∀ s ∈ p.pending,
      Delivers around (sourceCall plan s) (placeIn around.directory plan s.objectPath))
    (h : LibraryCompiled plan tools around w l defns units answered p compiled w') :
    (∀ s ∈ p.included,
        w'.tree.isOccupied (placeIn around.directory plan s.objectPath) = true) ∧
      ∃ v, UnitsCompiled plan tools around w l defns units answered v ∧ ∀ u ∈ units,
        (w'.tree.isOccupied (placeIn around.directory plan u.objectPath) = true ↔
          ¬ goalOf around.directory plan.libraryDirectory <+:
              placeIn around.directory plan u.objectPath ∨
            perform (copyOf plan).isFresh around (v.announcing plan .compileLibrary) =
              (.ok true, v.announcing plan .compileLibrary) ∨
            ∃ bytes, bytesAt plan.archive v.tree around.directory = .ok bytes ∧
              Ships around.unpacker plan.libraryDirectory bytes
                (placeIn around.directory plan u.objectPath)) := by
  obtain ⟨v', hlibrary, hran⟩ := h.called
  obtain ⟨_, v, hcompiled, rfl, hprepare, hwf, hleads, htrusted', hobjects⟩ :=
    hlibrary.start habsolute hw hcwd htrusted hcode hunits
  have htree : (v.announcing plan .compileLibrary).tree = v.tree :=
    (v.quiet_announcing plan .compileLibrary).2
  have hwf' := wellFormed_of_perform_prepare habsolute hwf hprepare
  have hitem : ∀ a ∈ compiled, a.item ∈ p.pending := fun a ha =>
    h.items_perm.subset (List.mem_map_of_mem ha)
  obtain ⟨-, hwritten, hfiles, hkept⟩ := hran.delivered
    (fun s => placeIn around.directory plan s.objectPath)
    (fun a ha => hsources a.item (hitem a ha)) h.succeeded hwf'
  refine ⟨fun s hs => ?_, v, hcompiled, fun u hu => ?_⟩
  · by_cases hpending : s ∈ p.pending
    · obtain ⟨a, ha, rfl⟩ := List.mem_map.1 (h.items_perm.symm.subset hpending)
      exact isOccupied_of_isFile (hfiles a ha)
    · obtain ⟨-, -, -, hgoal, -⟩ := placeIn_included habsolute hwf htrusted' hprepare hs
      have hocc := isOccupied_of_prepare hprepare hs hpending
      rw [hgoal] at hocc
      rcases isFile_or_isDirectory hocc with hfile | hdir
      · exact isOccupied_of_isFile (hkept _ hfile)
      · exact isOccupied_of_isDirectory ((hwritten.isDirectory_eq _).trans hdir)
  · obtain ⟨hfile, unit, hunit, hplace⟩ := hobjects u hu
    -- no compiler of a source writes where the object of a unit goes
    have hsame : w'.tree.node? (placeIn around.directory plan u.objectPath) =
        v'.tree.node? (placeIn around.directory plan u.objectPath) := by
      refine hwritten.node?_eq ?_
      rintro ⟨a, ha, heq⟩
      have hincluded : a.item ∈ p.included :=
        hlibrary.pending_sublist.subset (hitem a ha)
      obtain ⟨src, hsrc, -, -, hobject⟩ :=
        placeIn_included habsolute hwf htrusted' hprepare hincluded
      rw [hplace] at heq
      exact not_objectPlace_source hsrc ⟨unit, hunit, (heq.trans hobject).symm⟩
    rw [isOccupied_congr hsame, ← htree]
    rw [hplace] at hfile ⊢
    exact isOccupied_unit_of_prepare habsolute hwf htrusted' hprepare hleads hunit hfile

end Link

section OutputTool

variable {made : List String → ToolReply × List UInt8}
  (htool : around.tool = outputTool around.directory made)
  (hclang : plan.clang.isAbsolute = true) (hclangpp : plan.clangpp.isAbsolute = true)
  (hflags : "-o" ∉ plan.compileFlags) (habsolute : plan.workdir.isAbsolute = true)
  (hw : w.tree.WellFormed) (hcwd : w.tree.isDirectory around.directory = true)
  (htrusted : Trusted plan.libraryDirectory w.tree)
  (hcode : (codeCall plan tools around w l defns).WritesOnlyUnits)

include htool hclangpp habsolute hw hcwd hcode

theorem delivers_units_of_output (h : Generated plan tools around w l defns units w') :
    ∀ u ∈ units, Delivers around (unitCall plan u)
      (placeIn around.directory plan u.objectPath) := by
  intro u hu
  obtain ⟨way, -, hnames, rfl, -⟩ := (h.ready hcode hw hcwd).exists_way habsolute hu
  refine (unitCall_outputTool htool hclangpp ?_).2
  rw [isAbsolute_descend _ fun s hs => isStep_of_isEntryName (hnames s hs), habsolute]

include hclang hflags htrusted

theorem delivers_sources_of_output
    (h : LibraryPrepared plan tools around w l defns units answered p w') :
    ∀ s ∈ p.included, Delivers around (sourceCall plan s)
      (placeIn around.directory plan s.objectPath) := by
  intro s hs
  obtain ⟨u, hcompiled, -⟩ := h.prepared
  obtain ⟨v, hgenerated, -⟩ := hcompiled.called
  obtain ⟨v', -, -, -, hprepare, hwf, -, htrusted', -⟩ := h.start habsolute hw hcwd htrusted hcode
    (delivers_units_of_output htool hclangpp habsolute hw hcwd hcode hgenerated)
  obtain ⟨src, hsrc, rfl, -⟩ := placeIn_included habsolute hwf htrusted' hprepare hs
  refine (sourceCall_outputTool htool hclangpp hclang hflags ?_).2
  change (plan.libraryDirectory.descend src).isAbsolute = true
  rw [isAbsolute_descend _ fun s hs => isStep_of_isEntryName (hsrc.2.1 s hs),
    isAbsolute_libraryDirectory habsolute]

end OutputTool

theorem exists_link_of_ok {r : Result} (plan : Plan) (tools : IrTools) (around : Surroundings)
    (w : World) (h : (perform (build plan tools) around w).1 = .ok r) :
    ∃ l defns answered p compiled v reply,
      LibraryCompiled plan tools around w l defns r.units answered p compiled v ∧
      r.library.objects = p.included.map Source.objectPath ∧
      Ran around (finalCall plan r.units p.included l.links)
        (v.announcing plan .linkExecutable) reply (perform (build plan tools) around w).2 := by
  obtain ⟨steps, hcourse⟩ := build_takes_course plan tools around w
  rw [h] at hcourse
  generalize (perform (build plan tools) around w).2 = w' at hcourse ⊢
  cases hcourse with
  | finished hlibrary hran hsuccess => exact ⟨_, _, _, _, _, _, _, hlibrary, rfl, hran⟩

section LoneUnit

/-- The disk on which the last command was run. -/
def lastRunOn? : List Event → Option FileTree
  | .changed _ :: .ran _ before :: _ => some before
  | _ => none

theorem lastRunOn?_of_ran {call : Invocation} {reply : ToolReply}
    (h : Ran around call w reply w') : lastRunOn? w'.history = some w.tree := by
  obtain ⟨w₁, -, htree, -, hhistory⟩ := h
  rw [hhistory, ← htree]
  rfl

/-- Tools that succeed and write one byte. -/
def succeeding (_ : List String) : ToolReply × List UInt8 :=
  (.exited 0 [] [], [79])

/-- A build whose code generation writes one unit. -/
def buildWriting (unit : Path) : Action Result :=
  build planOfA (Units.toolsWriting unit (.ok ()))

variable {unit : Path} {t : FileTree}

theorem trusted_of_unmarked {lib : Path} (h : t.isFile (goalOf [] lib ++ [markerName]) = false) :
    Trusted lib t := fun hmarked =>
  absurd (fun hfile => by rw [h] at hfile; cases hfile) hmarked

/-- The call of code generation in such a build. -/
def callWriting (unit : Path) (t : FileTree) : Units.Call :=
  codeCall planOfA (Units.toolsWriting unit (.ok ())) (aroundOfA succeeding) (.ofTree t)
    (.ofLists [] [] []) []

theorem link_of_buildWriting (ht : t.WellFormed)
    (hunmarked : t.isFile (goalOf [] planOfA.libraryDirectory ++ [markerName]) = false)
    (hcode : (callWriting unit t).WritesOnlyUnits)
    (hok : (perform (buildWriting unit) (aroundOfA succeeding) (.ofTree t)).1.toOption.map
      Result.units = some [unit]) :
    ∃ answered p compiled v reply,
      LibraryCompiled planOfA (Units.toolsWriting unit (.ok ())) (aroundOfA succeeding) (.ofTree t)
        (.ofLists [] [] []) [] [unit] answered p compiled v ∧
      Ran (aroundOfA succeeding) (finalCall planOfA [unit] p.included [])
        (v.announcing planOfA .linkExecutable) reply
        (perform (buildWriting unit) (aroundOfA succeeding) (.ofTree t)).2 ∧
      Delivers (aroundOfA succeeding) (unitCall planOfA unit)
        (placeIn [] planOfA unit.objectPath) ∧
      ∀ s ∈ p.pending, Delivers (aroundOfA succeeding) (sourceCall planOfA s)
        (placeIn [] planOfA s.objectPath) := by
  rcases hbuild : perform (buildWriting unit) (aroundOfA succeeding) (.ofTree t) with
    ⟨fault | r, w'⟩
  · rw [hbuild] at hok
    cases hok
  · rw [hbuild] at hok
    have hr : r.units = [unit] := Option.some.inj hok
    obtain ⟨l, defns, answered, p, compiled, v, reply, hlibrary, -, hran⟩ :=
      exists_link_of_ok planOfA _ _ _ (congrArg Prod.fst hbuild)
    obtain ⟨v', hprepared, -⟩ := hlibrary.called
    obtain ⟨u, hcompiled, -⟩ := hprepared.prepared
    obtain ⟨u', hgenerated, -⟩ := hcompiled.called
    -- such a toolchain links and optimizes nothing
    have hl : l = .ofLists [] [] [] := (Except.ok.inj hgenerated.linked).symm
    subst hl
    have hdefns : defns = [] := (Except.ok.inj hgenerated.optimized).symm
    subst hdefns
    have hcwd : (World.ofTree t).tree.isDirectory [] = true := isDirectory_iff.2 (node?_nil _)
    have htrusted : Trusted planOfA.libraryDirectory (World.ofTree t).tree :=
      trusted_of_unmarked hunmarked
    rw [hr] at hlibrary hran hprepared hgenerated
    refine ⟨answered, p, compiled, v, reply, hlibrary, ?_, ?_, fun s hs => ?_⟩
    · rw [show perform (build planOfA _) _ _ = _ from hbuild] at hran
      exact hran
    · exact delivers_units_of_output rfl rfl rfl ht hcwd hcode hgenerated unit (by simp)
    · exact delivers_sources_of_output rfl rfl rfl (by simp [planOfA]) rfl ht hcwd htrusted hcode
        hprepared s (hprepared.pending_sublist.subset hs)

/-- A unit beside the library, and a runtime source: both objects are there. -/
theorem objects_at_link_beside_library :
    ∃ answered p compiled v,
      LibraryCompiled planOfA (Units.toolsWriting (.parse "/w/main.ll") (.ok ()))
        (aroundOfA succeeding) (.ofTree diskOfA) (.ofLists [] [] []) [] [.parse "/w/main.ll"]
        answered p compiled v ∧
      (∀ s ∈ p.included, v.tree.isOccupied (placeIn [] planOfA s.objectPath) = true) ∧
      v.tree.isOccupied (placeIn [] planOfA (Path.parse "/w/main.ll").objectPath) = true := by
  have hcwd : diskOfA.isDirectory [] = true := isDirectory_iff.2 (node?_nil _)
  have hunmarked : diskOfA.isFile (goalOf [] planOfA.libraryDirectory ++ [markerName]) = false := by
    decide
  have hcode : (callWriting (.parse "/w/main.ll") diskOfA).WritesOnlyUnits :=
    Units.Call.writesOnlyUnits_of_writing rfl (by decide) (by decide)
      (show goalOf [] (.parse "/w/main.ll") = goalOf [] (.parse "/w") ++ ["main.ll"] by
        decide)
      ⟨by simp, by decide⟩ wellFormed_diskOfA hcwd (by decide +kernel)
  obtain ⟨answered, p, compiled, v, reply, hlibrary, -, hunit, hsources⟩ :=
    link_of_buildWriting wellFormed_diskOfA hunmarked hcode (by decide +kernel)
  obtain ⟨hincluded, u, -, hobjects⟩ := objects_at_link rfl wellFormed_diskOfA hcwd
    (trusted_of_unmarked hunmarked) hcode (List.forall_mem_singleton.2 hunit) hsources hlibrary
  refine ⟨answered, p, compiled, v, hlibrary, hincluded, ?_⟩
  exact (hobjects _ (by simp)).2 (.inl (by decide +kernel))

/-- The object of a unit below the library is gone when it is linked, although every compiler has
succeeded and has written its object. -/
theorem unit_object_missing_at_link :
    ∃ answered p compiled v reply w',
      (callWriting (.parse "/w/lib/u.ll") diskWithLibrary).WritesOnlyUnits ∧
      LibraryCompiled planOfA (Units.toolsWriting (.parse "/w/lib/u.ll") (.ok ()))
        (aroundOfA succeeding) (.ofTree diskWithLibrary) (.ofLists [] [] []) []
        [.parse "/w/lib/u.ll"] answered p compiled v ∧
      Ran (aroundOfA succeeding) (finalCall planOfA [.parse "/w/lib/u.ll"] p.included [])
        (v.announcing planOfA .linkExecutable) reply w' ∧
      Delivers (aroundOfA succeeding) (unitCall planOfA (.parse "/w/lib/u.ll"))
        (placeIn [] planOfA (Path.parse "/w/lib/u.ll").objectPath) ∧
      (∀ s ∈ p.pending, Delivers (aroundOfA succeeding) (sourceCall planOfA s)
        (placeIn [] planOfA s.objectPath)) ∧
      v.tree.isOccupied (placeIn [] planOfA (Path.parse "/w/lib/u.ll").objectPath) = false := by
  have hcode : (callWriting (.parse "/w/lib/u.ll") diskWithLibrary).WritesOnlyUnits :=
    Units.Call.writesOnlyUnits_of_writing rfl (by decide) (by decide)
      (show goalOf [] (.parse "/w/lib/u.ll") = goalOf [] (.parse "/w") ++ ["lib", "u.ll"] by
        decide)
      ⟨by simp, by decide⟩ wellFormed_diskWithLibrary (isDirectory_iff.2 (node?_nil _))
      (by decide +kernel)
  obtain ⟨answered, p, compiled, v, reply, hlibrary, hran, hunit, hsources⟩ :=
    link_of_buildWriting wellFormed_diskWithLibrary (by decide) hcode (by decide +kernel)
  refine ⟨answered, p, compiled, v, reply, _, hcode, hlibrary, hran, hunit, hsources, ?_⟩
  have hlast := lastRunOn?_of_ran hran
  rw [(v.quiet_announcing planOfA .linkExecutable).2] at hlast
  have hmissing : ((lastRunOn? (perform (buildWriting (.parse "/w/lib/u.ll")) (aroundOfA succeeding)
      (.ofTree diskWithLibrary)).2.history).map fun t =>
        t.isOccupied (placeIn [] planOfA (Path.parse "/w/lib/u.ll").objectPath)) =
          some false := by
    decide +kernel
  rw [hlast] at hmissing
  exact Option.some.inj hmissing

end LoneUnit

end Build

end StagedBuild
