import StagedBuild.Proofs.Build.LinkedObjects

/-!
What a build touches, however it ends: its library, the executable, the record of units, objects of
units, and the units that its toolchain writes. Two things have to be so before, and are so after:
the library can be trusted, and the record lists no unit that may not be touched. They hold from one
stage to the next, so the build is framed stage by stage.
-/

namespace StagedBuild.Build

open Action FileTree Disk NativeLibrary Manifest

variable {plan : Plan} {tools : IrTools} {around : Surroundings} {w v w' : World} {l : Linked}
  {defns : List Definition} {units : List Path} {answered : List (Pool.Answered Path)}
  {p : Preparation} {compiled : List (Pool.Answered Source)} {t t' : FileTree} {workdir : Path}
  {touched more : Location → Prop}

/-- The location of the library of a work directory. -/
def libraryAt (workdir : Path) : Location :=
  goalOf [] workdir ++ ["lib"]

theorem goalOf_library (habsolute : plan.workdir.isAbsolute = true) (cwd : Location) :
    goalOf cwd plan.libraryDirectory = libraryAt plan.workdir := by
  rw [goalOf_libraryDirectory, goalOf_of_absolute habsolute]
  rfl

/-- What a work directory keeps from one run to the next is in order: its library can be trusted,
and its record lists nothing that may not be touched. -/
structure Orderly (workdir : Path) (touched : Location → Prop) (t : FileTree) : Prop where
  trusted : Trusted (workdir / "lib") t
  recorded : Units.RecordsOnly workdir [] touched t

/-- The files that settle whether a work directory is in order. -/
def IsSettling (workdir : Path) (q : Location) : Prop :=
  q = libraryAt workdir ++ [markerName] ∨ q = fileAt (libraryAt workdir) ∨
    q = Units.recordAt [] workdir

theorem IsSettling.lastLetter {q : Location} (h : IsSettling workdir q) :
    lastLetter q ≠ some 'l' ∧ lastLetter q ≠ some 'o' := by
  rcases h with rfl | rfl | rfl
  · rw [lastLetter_concat]
    decide
  · rw [fileAt, lastLetter_concat]
    decide
  · rw [Units.recordAt, lastLetter_concat]
    decide

theorem goalOf_lib (workdir : Path) : goalOf [] (workdir / "lib") = libraryAt workdir :=
  goalOf_child [] workdir (by decide)

/-- From one world to another only what may be touched changes; if the work directory was in order,
it is so afterwards. -/
abbrev Frames (workdir : Path) (touched : Location → Prop) : World → World → Prop :=
  Framed (libraryAt workdir) (Orderly workdir touched) touched

theorem frames_of_spares
    (hmore : ∀ q, more q → touched q) (hsettling : ∀ q, IsSettling workdir q → ¬ more q)
    (hwf : w.tree.WellFormed → w'.tree.WellFormed)
    (hdirs : ∀ loc, w.tree.isDirectory loc = true → w'.tree.isDirectory loc = true)
    (hspares : Spares more w.tree w'.tree) : Frames workdir touched w w' := by
  intro hw horderly
  refine ⟨hwf hw, fun loc _ => hdirs loc, hspares.mono hmore, ?_, ?_⟩
  · refine horderly.trusted.of_spares hspares ?_ ?_
    · exact hsettling _ (.inl (by rw [goalOf_lib]))
    · exact hsettling _ (.inr (.inl (by rw [goalOf_lib])))
  · exact horderly.recorded.of_spares hspares (hsettling _ (.inr (.inr rfl))) fun loc _ => hdirs loc

theorem frames_of_filesChanged {places : Location → Prop}
    (hmore : ∀ q, places q → touched q) (hsettling : ∀ q, IsSettling workdir q → ¬ places q)
    (h : w.tree.WellFormed → w'.tree.WellFormed ∧ FilesChanged places w.tree w'.tree) :
    Frames workdir touched w w' := by
  intro hw
  obtain ⟨hwf, hchanged⟩ := h hw
  exact frames_of_spares hmore hsettling (fun _ => hwf)
    (fun loc hloc => (hchanged.isDirectory_eq loc).trans hloc) (hchanged.spares fun _ => id) hw

/-- What may be touched in a build. -/
inductive MayTouch (plan : Plan) (tools : IrTools) (around : Surroundings) (w : World) :
    Location → Prop
  | library (way : Location) : MayTouch plan tools around w (libraryAt plan.workdir ++ way)
  | executable : MayTouch plan tools around w (goalOf [] plan.workdir ++ ["out"])
  | record : MayTouch plan tools around w (Units.recordAt [] plan.workdir)
  | object {l : Linked} {defns : List Definition} {units : List Path} {v : World}
      {way : Location} : Generated plan tools around w l defns units v →
      plan.workdir.descend way ∈ units →
      MayTouch plan tools around w (goalOf [] plan.workdir ++ objectWay way)
  | unit {l : Linked} {defns : List Definition} {way : Location} :
      linkAnswer plan tools (w.askedToLink plan) = .ok l →
      tools.optimize plan l (w.askedToOptimize plan l) = .ok defns → Units.IsUnitWay way →
      (codeCall plan tools around w l defns).Wrote (goalOf [] plan.workdir ++ way) →
      MayTouch plan tools around w (goalOf [] plan.workdir ++ way)

theorem MayTouch.isBelow {q : Location} (h : MayTouch plan tools around w q) :
    goalOf [] plan.workdir <+: q := by
  cases h with
  | library way =>
      rw [libraryAt, List.append_assoc]
      exact List.prefix_append _ _
  | executable => exact List.prefix_append _ _
  | record => exact List.prefix_append _ _
  | object _ _ => exact List.prefix_append _ _
  | unit _ _ _ _ => exact List.prefix_append _ _

/-- The toolchain of a build writes only units, and its tools write only what their commands tell
them to. The work directory is given from the root, and the current directory is there. -/
structure Contained (plan : Plan) (tools : IrTools) (around : Surroundings) (w : World) :
    Prop where
  absolute : plan.workdir.isAbsolute = true
  directory : w.tree.isDirectory around.directory = true
  code : ∀ l defns, linkAnswer plan tools (w.askedToLink plan) = .ok l →
    tools.optimize plan l (w.askedToOptimize plan l) = .ok defns →
    (codeCall plan tools around w l defns).WritesOnlyUnits
  units : ∀ u : Path, u.isAbsolute = true →
    Confined around (unitCall plan u) (placeIn around.directory plan u.objectPath)
  sources : ∀ s : Source, s.path.isAbsolute = true →
    Confined around (sourceCall plan s) (placeIn around.directory plan s.objectPath)
  executable : ∀ units included links, Confined around (finalCall plan units included links)
    (placeIn around.directory plan plan.outputPath)

/-- The archive, as it is when its copy is looked at, ships no marker together with a manifest. -/
def ArchiveInOrder (plan : Plan) (tools : IrTools) (around : Surroundings) (w : World) : Prop :=
  ∀ l defns units answered v bytes, UnitsCompiled plan tools around w l defns units answered v →
    bytesAt plan.archive v.tree around.directory = .ok bytes → ShipsNotBoth bytes

theorem Contained.goalOf_workdir (h : Contained plan tools around w) :
    goalOf around.directory plan.workdir = goalOf [] plan.workdir :=
  goalOf_of_absolute h.absolute around.directory

theorem place_of_included {s : Source} (habsolute : plan.workdir.isAbsolute = true)
    (hv : v.tree.WellFormed) (htrusted : Trusted plan.libraryDirectory v.tree)
    (hprepare : perform (prepare plan l.links) around v = (.ok p, w')) (hs : s ∈ p.included) :
    ∃ src, IsSourceWay src ∧ s.path.isAbsolute = true ∧
      placeIn around.directory plan s.objectPath = libraryAt plan.workdir ++ objectWay src := by
  obtain ⟨src, hsrc, heq, -, hplace⟩ := placeIn_included habsolute hv htrusted hprepare hs
  refine ⟨src, hsrc, ?_, goalOf_library habsolute around.directory ▸ hplace⟩
  rw [heq]
  change (plan.libraryDirectory.descend src).isAbsolute = true
  rw [isAbsolute_descend _ fun s hs => isStep_of_isEntryName (hsrc.2.1 s hs),
    isAbsolute_libraryDirectory habsolute]

theorem placeIn_outputPath (habsolute : plan.workdir.isAbsolute = true) (cwd : Location) :
    placeIn cwd plan plan.outputPath = goalOf [] plan.workdir ++ ["out"] := by
  have hout : plan.outputPath = plan.workdir / "out" := rfl
  rw [placeIn, hout, goalOf_child _ _ (by decide), goalOf_of_absolute habsolute]

section Stages

variable (hcontained : Contained plan tools around w)
  (hmore : ∀ q, MayTouch plan tools around w q → touched q)

include hcontained hmore

theorem frames_codeCall (hlinked : linkAnswer plan tools (w.askedToLink plan) = .ok l)
    (hoptimized : tools.optimize plan l (w.askedToOptimize plan l) = .ok defns) :
    Frames plan.workdir touched w (codeCall plan tools around w l defns).after := by
  have hcode := hcontained.code l defns hlinked hoptimized
  have hgoal := hcontained.goalOf_workdir
  have hbefore := codeCall_before_tree plan tools around w l defns
  have hwritten : ∀ way, Units.IsUnitWay way →
      (codeCall plan tools around w l defns).Wrote (goalOf around.directory plan.workdir ++ way) →
      touched (goalOf around.directory plan.workdir ++ way) := by
    intro way hunit hwrote
    rw [hgoal] at hwrote ⊢
    exact hmore _ (.unit hlinked hoptimized hunit hwrote)
  have hrecord : touched (Units.recordAt around.directory plan.workdir) := by
    rw [Units.recordAt, hgoal]
    exact hmore _ .record
  intro hw horderly
  obtain ⟨hwf, hdirs⟩ := sound_codeCall hcode hw hcontained.directory
  have hrecorded : Units.RecordsOnly plan.workdir around.directory touched
      (codeCall plan tools around w l defns).before.tree := by
    rw [hbefore]
    exact horderly.recorded.congr_directory hcontained.absolute
  have hspares := Units.Call.sparing hcode (Units.Call.places_of_recordsOnly hrecorded) hwritten
    hrecord
  have hcodeSpares := Units.Call.sparing_codePlace hcode
  rw [Sparing, hbefore] at hspares hcodeSpares
  refine ⟨hwf, fun loc _ => hdirs loc, hspares, ?_, ?_⟩
  · have hplace : ∀ {name : String}, lastLetter [name] ≠ some 'l' →
        ¬ Units.CodePlace around.directory plan.workdir
          (goalOf [] (plan.workdir / "lib") ++ [name]) := by
      intro name hletter
      rw [goalOf_lib, ← goalOf_library hcontained.absolute around.directory]
      exact not_codePlace_library (by simp) hletter
    exact horderly.trusted.of_spares hcodeSpares (hplace (by decide)) (hplace (by decide))
  · exact (Units.Call.recordsOnly_after hcode (hbefore ▸ hw) (hbefore ▸ hcontained.directory)
      hrecorded hwritten).congr_directory hcontained.absolute

omit hmore in
theorem filesChanged_unitsCalled (hgenerated : Generated plan tools around w l defns units v)
    (hcalled : CalledEach plan around .compileUnits (unitCall plan) units v answered w')
    (hw : w.tree.WellFormed) :
    UnitsReady around plan units w.tree v.tree ∧ w'.tree.WellFormed ∧
      FilesChanged (fun q => ∃ way, Units.IsUnitWay way ∧ plan.workdir.descend way ∈ units ∧
        q = goalOf [] plan.workdir ++ objectWay way) v.tree w'.tree := by
  have hready := hgenerated.ready
    (hcontained.code l defns hgenerated.linked hgenerated.optimized) hw hcontained.directory
  have htree : (v.announcing plan .compileUnits).tree = v.tree :=
    (v.quiet_announcing plan .compileUnits).2
  have hways : ∀ a ∈ answered, ∃ way, Units.IsUnitWay way ∧ plan.workdir.descend way ∈ units ∧
      a.item.isAbsolute = true ∧ placeIn around.directory plan a.item.objectPath =
        goalOf [] plan.workdir ++ objectWay way := by
    intro a ha
    have hitem := hcalled.items_perm.subset (List.mem_map_of_mem ha)
    obtain ⟨way, hunit, hnames, heq, hplace⟩ :=
      hready.exists_way hcontained.absolute hitem
    refine ⟨way, hunit, heq ▸ hitem, ?_, hcontained.goalOf_workdir ▸ hplace⟩
    rw [heq, isAbsolute_descend _ fun s hs => isStep_of_isEntryName (hnames s hs),
      hcontained.absolute]
  obtain ⟨hwf, hchanged⟩ := hcalled.ran.confined
    (fun u => placeIn around.directory plan u.objectPath)
    (fun a ha => by
      obtain ⟨way, -, -, habsolute, -⟩ := hways a ha
      exact hcontained.units a.item habsolute) (htree ▸ hready.wellFormed)
  rw [htree] at hchanged
  refine ⟨hready, hwf, hchanged.mono ?_⟩
  rintro q ⟨a, ha, rfl⟩
  obtain ⟨way, hunit, hmem, -, hplace⟩ := hways a ha
  exact ⟨way, hunit, hmem, hplace⟩

/-- Generating and compiling the units of a build. The work directory is there afterwards. -/
theorem frames_unitsCalled (hgenerated : Generated plan tools around w l defns units v)
    (hcalled : CalledEach plan around .compileUnits (unitCall plan) units v answered w')
    (hw : w.tree.WellFormed) :
    Frames plan.workdir touched w w' ∧ LeadsToDirectory plan.workdir w'.tree around.directory := by
  obtain ⟨hready, hwf, hchanged⟩ := filesChanged_unitsCalled hcontained hgenerated hcalled hw
  have hafter := hgenerated.after_codeCall
  refine ⟨Passage.trans (hafter ▸ frames_codeCall hcontained hmore hgenerated.linked
    hgenerated.optimized) (frames_of_filesChanged ?_ ?_
      fun _ => ⟨hwf, hchanged⟩), hready.leads.mono fun loc hloc =>
      (hchanged.isDirectory_eq loc).trans hloc⟩
  · rintro q ⟨way, -, hmem, rfl⟩
    exact hmore _ (.object hgenerated hmem)
  · rintro q hsettling ⟨way, -, -, rfl⟩
    refine hsettling.lastLetter.2 ?_
    rw [lastLetter_append _ (by simp [objectWay]), lastLetter_objectWay]

theorem exists_file_of_untouched (hw : w.tree.WellFormed)
    (horderly : Orderly plan.workdir touched w.tree)
    (huntouched : ¬ touched (goalOf around.directory plan.archive)) {bytes : List UInt8}
    (hcompiled : UnitsCompiled plan tools around w l defns units answered v)
    (hbytes : bytesAt plan.archive v.tree around.directory = .ok bytes) :
    ∃ f : File, w.tree.node? (goalOf around.directory plan.archive) = some (.file f) ∧
      f.bytes = bytes := by
  obtain ⟨u, hgenerated, hcalled⟩ := hcompiled.called
  obtain ⟨-, -, hspares, -⟩ :=
    (frames_unitsCalled hcontained hmore hgenerated hcalled hw).1 hw horderly
  obtain ⟨-, -, f, hf, hread⟩ := bytesAt_eq_ok_iff.1 hbytes
  exact ⟨f, hspares.node?_of_file huntouched hf, hread⟩

theorem archiveInOrder_of_untouched (hw : w.tree.WellFormed)
    (horderly : Orderly plan.workdir touched w.tree)
    (huntouched : ¬ touched (goalOf around.directory plan.archive))
    (hships : ∀ f, w.tree.node? (goalOf around.directory plan.archive) = some (.file f) →
      ShipsNotBoth f.bytes) : ArchiveInOrder plan tools around w := by
  intro l defns units answered v bytes hcompiled hbytes
  obtain ⟨f, hf, rfl⟩ := exists_file_of_untouched hcontained hmore hw horderly huntouched hcompiled
    hbytes
  exact hships f hf

variable (harchive : ArchiveInOrder plan tools around w)

include harchive

theorem frames_prepare (hcompiled : UnitsCompiled plan tools around w l defns units answered v)
    (hw : w.tree.WellFormed) :
    Frames plan.workdir touched w
      (perform (prepare plan l.links) around (v.announcing plan .compileLibrary)).2 := by
  obtain ⟨u, hgenerated, hcalled⟩ := hcompiled.called
  obtain ⟨hframes, hleads⟩ := frames_unitsCalled hcontained hmore hgenerated hcalled hw
  have htree : (v.announcing plan .compileLibrary).tree = v.tree :=
    (v.quiet_announcing plan .compileLibrary).2
  have hlib := isAbsolute_libraryDirectory hcontained.absolute
  have hgoal := goalOf_library hcontained.absolute
  have hout : ¬ goalOf around.directory plan.libraryDirectory <+: [] := by
    rw [goalOf_libraryDirectory]
    simp
  refine Passage.trans hframes (fun hwf horderly => ?_)
  rw [← htree] at hwf horderly hleads
  have htrusted : Trusted plan.libraryDirectory (v.announcing plan .compileLibrary).tree :=
    horderly.trusted
  obtain ⟨hwf', hdirs, htrusted'⟩ := keepsTrust_prepare hlib hwf hleads htrusted
    (fun bytes hbytes => harchive l defns units answered v bytes hcompiled
      (htree ▸ hbytes)) l.links hout hwf (isDirectory_iff.2 (node?_nil _)) htrusted
  rw [hgoal] at hdirs
  have hspares : Sparing (libraryAt plan.workdir <+: ·) (v.announcing plan .compileLibrary)
      (perform (prepare plan l.links) around (v.announcing plan .compileLibrary)).2 :=
    sparing_prepare hlib (fun way => by rw [hgoal]; exact List.prefix_append _ _) hwf
      (htrusted.scanned hlib) l.links
  rw [Sparing] at hspares
  rw [htree] at hdirs hspares horderly
  have hbelow : ∀ q, libraryAt plan.workdir <+: q → touched q := by
    rintro q ⟨way, rfl⟩
    exact hmore _ (.library way)
  refine ⟨hwf', hdirs, hspares.mono hbelow, htrusted', ?_⟩
  refine horderly.recorded.of_spares hspares ?_ fun loc hloc =>
    hdirs loc fun hprefix => hloc (hbelow loc hprefix)
  rw [libraryAt, Units.recordAt, List.prefix_append_right_inj]
  decide

theorem frames_sourcesRan
    (hprepared : LibraryPrepared plan tools around w l defns units answered p v)
    (hran : Pool.RanAll around (sourceCall plan) v compiled w')
    (hperm : (compiled.map Pool.Answered.item).Perm p.pending) (hw : w.tree.WellFormed) :
    Frames plan.workdir touched w w' := by
  obtain ⟨u, hcompiled, hprepare⟩ := hprepared.prepared
  have hframes := frames_prepare hcontained hmore harchive hcompiled hw
  rw [hprepare] at hframes
  have htree : (u.announcing plan .compileLibrary).tree = u.tree :=
    (u.quiet_announcing plan .compileLibrary).2
  intro hw' horderly
  refine (Passage.trans hframes ?_ : Frames plan.workdir touched w w') hw' horderly
  obtain ⟨x, hgenerated, hcalled⟩ := hcompiled.called
  obtain ⟨hwf, -, -, horderly'⟩ :=
    (frames_unitsCalled hcontained hmore hgenerated hcalled hw).1 hw horderly
  have hplace : ∀ a ∈ compiled, ∃ src, IsSourceWay src ∧ a.item.path.isAbsolute = true ∧
      placeIn around.directory plan a.item.objectPath =
        libraryAt plan.workdir ++ objectWay src := by
    intro a ha
    have hitem := hprepared.pending_sublist.subset
      (hperm.subset (List.mem_map_of_mem ha))
    exact place_of_included hcontained.absolute (htree ▸ hwf) (htree ▸ horderly'.trusted) hprepare
      hitem
  have htouched : ∀ q,
      Pool.placesOf (fun s => placeIn around.directory plan s.objectPath) compiled q →
      touched q := by
    rintro q ⟨a, ha, rfl⟩
    obtain ⟨src, -, -, heq⟩ := hplace a ha
    dsimp only
    rw [heq]
    exact hmore _ (.library _)
  refine frames_of_filesChanged htouched ?_ fun hwf => ?_
  · rintro q hsettling ⟨a, ha, rfl⟩
    obtain ⟨src, -, -, heq⟩ := hplace a ha
    refine hsettling.lastLetter.2 ?_
    dsimp only
    rw [heq, lastLetter_append _ (by simp [objectWay]), lastLetter_objectWay]
  · refine hran.confined _ (fun a ha => ?_) hwf
    obtain ⟨src, -, habsolute, -⟩ := hplace a ha
    exact hcontained.sources a.item habsolute

theorem frames_executableRan {reply : ToolReply}
    (hlibrary : LibraryCompiled plan tools around w l defns units answered p compiled v)
    (hran : Ran around (finalCall plan units p.included l.links)
      (v.announcing plan .linkExecutable) reply w') (hw : w.tree.WellFormed) :
    Frames plan.workdir touched w w' := by
  obtain ⟨u, hprepared, hsources⟩ := hlibrary.called
  have htree : (v.announcing plan .linkExecutable).tree = v.tree :=
    (v.quiet_announcing plan .linkExecutable).2
  refine Passage.trans
    (frames_sourcesRan hcontained hmore harchive hprepared hsources hlibrary.items_perm hw) ?_
  have htouched : ∀ q, q = goalOf [] plan.workdir ++ ["out"] → touched q := by
    rintro q rfl
    exact hmore _ .executable
  refine frames_of_filesChanged htouched ?_ fun hwf => ?_
  · rintro q hsettling rfl
    rcases hsettling with heq | heq | heq
    · rw [libraryAt, List.append_assoc] at heq
      exact absurd (List.append_cancel_left heq) (by decide)
    · rw [fileAt, libraryAt, List.append_assoc] at heq
      exact absurd (List.append_cancel_left heq) (by decide)
    · exact absurd (List.append_cancel_left heq) (by decide)
  · obtain ⟨hwf', hchanged⟩ := (hcontained.executable units p.included l.links).of_ran hran
      (htree ▸ hwf)
    rw [htree, placeIn_outputPath hcontained.absolute] at hchanged
    exact ⟨hwf', hchanged⟩

/-- A build, however it ends. -/
theorem frames_build (hw : w.tree.WellFormed) :
    Frames plan.workdir touched w (perform (build plan tools) around w).2 := by
  obtain ⟨steps, hcourse⟩ := build_takes_course plan tools around w
  generalize (perform (build plan tools) around w).1 = outcome at hcourse
  generalize (perform (build plan tools) around w).2 = w' at hcourse ⊢
  cases hcourse with
  | linkIr _ => exact .of_tree_eq (w.askedToLink_tree plan)
  | optimize _ _ => exact .of_tree_eq (w.askedToOptimize_tree plan _)
  | generate hlinked hoptimized hgenerate _ _ =>
      have hframes := frames_codeCall hcontained hmore hlinked hoptimized
      rwa [show (codeCall plan tools around w _ _).after = w' from
        congrArg Prod.snd hgenerate] at hframes
  | compileUnits hgenerated hcalled _ =>
      exact (frames_unitsCalled hcontained hmore hgenerated hcalled hw).1
  | prepareLibrary hcompiled hprepare =>
      have hframes := frames_prepare hcontained hmore harchive hcompiled hw
      rwa [hprepare] at hframes
  | compileLibrary hprepared hran hperm _ =>
      exact frames_sourcesRan hcontained hmore harchive hprepared hran hperm hw
  | linkExecutable hlibrary hran _ =>
      exact frames_executableRan hcontained hmore harchive hlibrary hran hw
  | finished hlibrary hran _ =>
      exact frames_executableRan hcontained hmore harchive hlibrary hran hw

end Stages

end StagedBuild.Build
