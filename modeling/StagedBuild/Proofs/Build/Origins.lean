import StagedBuild.Proofs.Build.Runs
import StagedBuild.Proofs.NativeLibrary.Traced

/-!
Where the runtime objects come from that a build links. A library keeps its objects from one run to
the next, and a source that has an object is not compiled again. So what is linked was shipped in
the archive, or the compiler of a source wrote it in this run or in an earlier one; and an earlier
one may have written it and failed.
-/

namespace StagedBuild.Build

open Action FileTree Disk NativeLibrary Manifest

variable {plan : Plan} {tools : IrTools} {around : Surroundings} {w v w' : World} {l : Linked}
  {defns : List Definition} {units : List Path} {answered : List (Pool.Answered Path)}
  {p : Preparation} {compiled : List (Pool.Answered Source)} {t t' : FileTree} {workdir : Path}
  {unpacks : Archive.Unpackers → Prop} {contents : List UInt8 → Prop}
  {left : Location → File → Prop} {q : Location}

/-- Between two worlds the compiler of a source ended so and wrote a file. -/
def CompilerWrote (plan : Plan) (around : Surroundings) (w w' : World) (reply : ToolReply)
    (q : Location) (f : File) : Prop :=
  ∃ s v v', Ran around (sourceCall plan s) v reply v' ∧
    placeIn around.directory plan s.objectPath = q ∧ Later w v ∧ Later v' w' ∧
      v.tree.node? q ≠ some (.file f) ∧ v'.tree.node? q = some (.file f)

theorem CompilerWrote.mono {w₀ w₁ : World} {reply : ToolReply} {f : File}
    (h : CompilerWrote plan around w w' reply q f) (hbefore : Later w₀ w) (hafter : Later w' w₁) :
    CompilerWrote plan around w₀ w₁ reply q f := by
  obtain ⟨s, v, v', hran, hplace, hlater, hlater', hwrote⟩ := h
  exact ⟨s, v, v', hran, hplace, hbefore.trans hlater, hlater'.trans hafter, hwrote⟩

/-- The bytes of the archive in a build that leads from one world to another, as they are when the
units are compiled. -/
def ReadsArchive (plan : Plan) (tools : IrTools) (around : Surroundings) (w w' : World)
    (bytes : List UInt8) : Prop :=
  ∃ l defns units answered v, UnitsCompiled plan tools around w l defns units answered v ∧
    Later v w' ∧ bytesAt plan.archive v.tree around.directory = .ok bytes

theorem ReadsArchive.mono {w₁ : World} {bytes : List UInt8}
    (h : ReadsArchive plan tools around w w' bytes) (hafter : Later w' w₁) :
    ReadsArchive plan tools around w w₁ bytes := by
  obtain ⟨l, defns, units, answered, v, hcompiled, hlater, hbytes⟩ := h
  exact ⟨l, defns, units, answered, v, hcompiled, hlater.trans hafter, hbytes⟩

section Later

theorem later_announcing (w : World) (plan : Plan) (stage : Stage) :
    Later w (w.announcing plan stage) :=
  .of_silent (w.quiet_announcing plan stage).1

theorem later_generate (plan : Plan) (tools : IrTools) (defns : List Definition) :
    Keeps around Later (Units.generate plan tools defns) := by
  have hstamps : Keeps around Later (Units.stamps plan.workdir) :=
    Keeps.of_readOnly (Units.readOnly_stamps _)
  have hremove : Keeps around Later (Units.removeRecorded plan.workdir) :=
    Units.keeps_removeRecorded _
  have hcode : Keeps around Later (Intermediate.generate plan tools defns) := by
    refine (Keeps.note fun _ => .of_event).bind fun _ => ?_
    refine (Keeps.of_readOnly fun _ _ => rfl).bind fun w => ?_
    exact (Keeps.setTree fun _ => .of_event).bind fun _ =>
      Keeps.of_readOnly (ReadOnly.ofExcept _ _)
  exact (keeps_makeDirectories _).bind fun _ => hremove.bind fun _ => hstamps.bind fun _ =>
    hcode.bind fun _ => hstamps.bind fun _ => (Units.keeps_writeRecord _ _).bind fun _ =>
      Keeps.pure _

theorem Generated.later (h : Generated plan tools around w l defns units v) : Later w v := by
  have hlink : Later w (w.askedToLink plan) := (later_announcing w plan .linkIr).trans .of_event
  have hoptimize : Later (w.askedToLink plan) (w.askedToOptimize plan l) :=
    (later_announcing _ plan .optimize).trans .of_event
  have hgenerate := (later_generate plan tools defns).of_perform h.generated
  exact ((hlink.trans hoptimize).trans (later_announcing _ plan .generate)).trans hgenerate

theorem UnitsCompiled.later (h : UnitsCompiled plan tools around w l defns units answered v) :
    Later w v := by
  obtain ⟨u, hgenerated, hcalled⟩ := h.called
  exact (hgenerated.later.trans (later_announcing _ plan .compileUnits)).trans hcalled.ran.later

theorem later_prepare (plan : Plan) (links : List String) (around : Surroundings) (w : World) :
    Later w (perform (prepare plan links) around (w.announcing plan .compileLibrary)).2 :=
  (later_announcing w plan .compileLibrary).trans (.of_silent (silent_prepare around plan links _))

theorem LibraryPrepared.later
    (h : LibraryPrepared plan tools around w l defns units answered p v) :
    ∃ u, UnitsCompiled plan tools around w l defns units answered u ∧ Later w u ∧ Later u v ∧
      perform (prepare plan l.links) around (u.announcing plan .compileLibrary) = (.ok p, v) := by
  obtain ⟨u, hcompiled, hprepare⟩ := h.prepared
  have hlater := later_prepare plan l.links around u
  rw [hprepare] at hlater
  exact ⟨u, hcompiled, hcompiled.later, hlater, hprepare⟩

end Later

section Traced

theorem noneComes_of_codePlace {cwd : Location}
    (h : Spares (Units.CodePlace cwd plan.workdir) t t') :
    NoneComes plan.libraryDirectory t t' := by
  refine .of_spares h fun q hq => ?_
  have hletter := hq.lastLetter
  rintro (hunit | rfl)
  · rw [hunit] at hletter
    exact absurd hletter (by decide)
  · rw [Units.recordAt, lastLetter_concat] at hletter
    exact absurd hletter (by decide)

theorem noneComes_of_unitObjects (hchanged : FilesChanged (fun q => ∃ way, Units.IsUnitWay way ∧
      plan.workdir.descend way ∈ units ∧ q = goalOf [] plan.workdir ++ objectWay way) t t') :
    NoneComes plan.libraryDirectory t t' := by
  refine .of_spares (hchanged.spares fun _ => id) ?_
  rintro q hq ⟨unit, hunit, -, rfl⟩
  rcases hq with hmarker | ⟨src, hsrc, hobject⟩
  · have hletter := congrArg lastLetter hmarker
    rw [lastLetter_concat, lastLetter_append _ (by simp [objectWay]), lastLetter_objectWay]
      at hletter
    exact absurd hletter (by decide)
  · rw [goalOf_libraryDirectory, List.append_assoc] at hobject
    exact objectWay_unit_ne _ hunit hsrc (List.append_cancel_left hobject)

theorem not_isTraced_executable {lib : Path} (base : Location) :
    ¬ IsTraced lib (base ++ ["out"]) := by
  intro h
  have hletter := h.lastLetter
  rw [lastLetter_concat] at hletter
  exact absurd hletter (by decide)

/-- Every location. -/
def Anywhere (_ : Location) : Prop := True

theorem anywhere {P : Location → Prop} : ∀ q, P q → Anywhere q := fun _ _ => trivial

theorem orderly_of_trusted (h : Trusted (workdir / "lib") t) : Orderly workdir Anywhere t :=
  ⟨h, fun _ _ _ _ => .inl trivial⟩

variable (hcontained : Contained plan tools around w) (hw : w.tree.WellFormed)
  (htraced : Traced unpacks contents left plan.libraryDirectory w.tree)

include hcontained hw htraced

theorem traced_of_unitsCalled (hgenerated : Generated plan tools around w l defns units v)
    (hcalled : CalledEach plan around .compileUnits (unitCall plan) units v answered w') :
    Traced unpacks contents left plan.libraryDirectory w'.tree := by
  obtain ⟨hready, -, hchanged⟩ := filesChanged_unitsCalled hcontained hgenerated hcalled hw
  exact htraced.of_noneComes
    ((noneComes_of_codePlace hready.spares).trans (noneComes_of_unitObjects hchanged))

variable (htrusted : Trusted plan.libraryDirectory w.tree)
  (hmarker : ∀ bytes, contents bytes → ShipsNoMarker bytes)

include hmarker

variable (hunpacks : unpacks around.unpacker)

include hunpacks

theorem traced_of_unitsCompiled
    (hcompiled : UnitsCompiled plan tools around w l defns units answered v)
    (hcontents : ∀ bytes, bytesAt plan.archive v.tree around.directory = .ok bytes →
      contents bytes) :
    Traced unpacks contents left plan.libraryDirectory
      (perform (prepare plan l.links) around (v.announcing plan .compileLibrary)).2.tree := by
  obtain ⟨u, hgenerated, hcalled⟩ := hcompiled.called
  have htree : (v.announcing plan .compileLibrary).tree = v.tree :=
    (v.quiet_announcing plan .compileLibrary).2
  have htraced' := traced_of_unitsCalled hcontained hw htraced hgenerated hcalled
  obtain ⟨hready, hwf, hchanged⟩ := filesChanged_unitsCalled hcontained hgenerated hcalled hw
  have hleads : LeadsToDirectory plan.workdir v.tree around.directory :=
    hready.leads.mono fun loc hloc => (hchanged.isDirectory_eq loc).trans hloc
  rw [← htree] at htraced' hwf hleads hcontents
  exact traced_of_prepare (isAbsolute_libraryDirectory hcontained.absolute) hwf hleads hunpacks
    hcontents hmarker htraced' l.links

omit hunpacks hmarker htraced in
include htrusted in
theorem marked_of_prepared {u : World}
    (hcompiled : UnitsCompiled plan tools around w l defns units answered u)
    (hprepare : perform (prepare plan l.links) around (u.announcing plan .compileLibrary) =
      (.ok p, v)) :
    v.tree.WellFormed ∧
      (∃ bytes f, bytesAt plan.archive u.tree around.directory = .ok bytes ∧
        v.tree.node? (goalOf [] plan.libraryDirectory ++ [markerName]) = some (.file f) ∧
          f.bytes = markingOf bytes) ∧
      ∀ s ∈ p.included, ∃ src, IsSourceWay src ∧ s.path.isAbsolute = true ∧
        placeIn around.directory plan s.objectPath =
          goalOf [] plan.libraryDirectory ++ objectWay src := by
  obtain ⟨x, hgenerated, hcalled⟩ := hcompiled.called
  have htree : (u.announcing plan .compileLibrary).tree = u.tree :=
    (u.quiet_announcing plan .compileLibrary).2
  obtain ⟨hframes, hleads⟩ := frames_unitsCalled hcontained anywhere hgenerated hcalled hw
  obtain ⟨hwf, -, -, horderly⟩ := hframes hw (orderly_of_trusted htrusted)
  have htrusted' : Trusted plan.libraryDirectory u.tree := horderly.trusted
  rw [← htree] at hwf hleads htrusted'
  have hlib := isAbsolute_libraryDirectory hcontained.absolute
  refine ⟨wellFormed_of_perform_prepare hcontained.absolute hwf hprepare, ?_, fun s hs => ?_⟩
  · rw [← htree]
    exact marker_of_perform_prepare hlib hwf hleads htrusted' hprepare
  · rw [show goalOf [] plan.libraryDirectory = libraryAt plan.workdir from
      goalOf_library hcontained.absolute []]
    exact place_of_included hcontained.absolute hwf htrusted' hprepare hs

omit hunpacks hmarker htraced in
include htrusted in
theorem exists_writer_of_sourcesRan
    (hprepared : LibraryPrepared plan tools around w l defns units answered p v)
    (hran : Pool.RanAll around (sourceCall plan) v compiled w')
    (hperm : (compiled.map Pool.Answered.item).Perm p.pending) {f : File}
    (hf : w'.tree.node? q = some (.file f)) :
    v.tree.node? q = some (.file f) ∨ (∃ src, IsSourceWay src ∧
        q = goalOf [] plan.libraryDirectory ++ objectWay src) ∧
      ∃ a ∈ compiled, CompilerWrote plan around v w' a.reply q f := by
  obtain ⟨u, hcompiled, -, -, hprepare⟩ := hprepared.later
  obtain ⟨hwf, -, hplace⟩ := marked_of_prepared hcontained hw htrusted hcompiled hprepare
  have hitem : ∀ a ∈ compiled, a.item ∈ p.included := fun a ha =>
    hprepared.pending_sublist.subset (hperm.subset (List.mem_map_of_mem ha))
  rcases hran.exists_writer (fun s => placeIn around.directory plan s.objectPath)
      (fun a ha => by
        obtain ⟨src, -, habsolute, -⟩ := hplace a.item (hitem a ha)
        exact hcontained.sources a.item habsolute) hwf hf with
    hbefore | ⟨a, ha, rfl, x, x', hwriter, hlater, hlater', hwrote⟩
  · exact .inl hbefore
  · obtain ⟨src, hsrc, -, heq⟩ := hplace a.item (hitem a ha)
    exact .inr ⟨⟨src, hsrc, heq⟩, a, ha, a.item, x, x', hwriter, rfl, hlater, hlater', hwrote⟩

include htrusted

theorem traced_of_sourcesRan
    (hprepared : LibraryPrepared plan tools around w l defns units answered p v)
    (hcontents : ∀ bytes, ReadsArchive plan tools around w w' bytes → contents bytes)
    (hran : Pool.RanAll around (sourceCall plan) v compiled w')
    (hperm : (compiled.map Pool.Answered.item).Perm p.pending) :
    Traced unpacks contents
      (fun q f => left q f ∨ ∃ reply, CompilerWrote plan around w w' reply q f)
      plan.libraryDirectory w'.tree := by
  obtain ⟨u, hcompiled, hbefore, hafter, hprepare⟩ := hprepared.later
  have htraced' := traced_of_unitsCompiled hcontained hw htraced hmarker hunpacks hcompiled
    fun bytes hbytes => hcontents bytes
      ⟨l, defns, units, answered, u, hcompiled, hafter.trans hran.later, hbytes⟩
  rw [hprepare] at htraced'
  have hwritten : ∀ q f, w'.tree.node? q = some (.file f) → v.tree.node? q = some (.file f) ∨
      (∃ src, IsSourceWay src ∧ q = goalOf [] plan.libraryDirectory ++ objectWay src) ∧
        ∃ reply, CompilerWrote plan around w w' reply q f := by
    intro q f hf
    refine (exists_writer_of_sourcesRan hcontained hw htrusted hprepared hran hperm hf).imp_right ?_
    rintro ⟨hobject, a, -, hwrote⟩
    exact ⟨hobject, a.reply, hwrote.mono (hbefore.trans hafter) (.refl w')⟩
  refine htraced'.of_written (fun m hm => (hwritten _ m hm).resolve_right ?_)
    fun q f _ hf => (hwritten q f hf).imp_right And.right
  rintro ⟨⟨src, -, heq⟩, -⟩
  have hletter := congrArg lastLetter (List.append_cancel_left heq)
  rw [lastLetter_objectWay] at hletter
  exact absurd hletter (by decide)

/-- Where an object comes from that is there when the library is compiled: it was shipped in the
archive, or left before, or a compiler has just written it. -/
theorem object_origin
    (hlibrary : LibraryCompiled plan tools around w l defns units answered p compiled v)
    (hcontents : ∀ bytes, ReadsArchive plan tools around w v bytes → contents bytes)
    (hdistinct : ∀ bytes other, contents bytes → contents other →
      markingOf bytes = markingOf other → bytes = other)
    {s : Source} (hs : s ∈ p.included) {f : File}
    (hf : v.tree.node? (placeIn around.directory plan s.objectPath) = some (.file f)) :
    (∃ bytes, ReadsArchive plan tools around w v bytes ∧
        ∃ unpackers, unpacks unpackers ∧ ShipsFile unpackers plan.libraryDirectory bytes
          (placeIn around.directory plan s.objectPath) f) ∨
      left (placeIn around.directory plan s.objectPath) f ∨
      ∃ a ∈ compiled, CompilerWrote plan around w v a.reply
        (placeIn around.directory plan s.objectPath) f := by
  obtain ⟨v₁, hprepared, hran⟩ := hlibrary.called
  obtain ⟨u, hcompiled, hbefore, hafter, hprepare⟩ := hprepared.later
  have hreads : ∀ bytes, bytesAt plan.archive u.tree around.directory = .ok bytes →
      ReadsArchive plan tools around w v bytes := fun bytes hbytes =>
    ⟨l, defns, units, answered, u, hcompiled, hafter.trans hran.later, hbytes⟩
  rcases exists_writer_of_sourcesRan hcontained hw htrusted hprepared hran hlibrary.items_perm hf
    with hthere | ⟨-, a, ha, hwrote⟩
  · obtain ⟨-, ⟨bytes, m, hbytes, hnode, hmarking⟩, hplace⟩ :=
      marked_of_prepared hcontained hw htrusted hcompiled hprepare
    have htraced' := traced_of_unitsCompiled hcontained hw htraced hmarker hunpacks hcompiled
      fun bytes hbytes => hcontents bytes (hreads bytes hbytes)
    rw [hprepare] at htraced'
    -- the marker tells that the library is a copy of the archive as it is in this build
    obtain ⟨other, hother, hmarking', hobjects⟩ := htraced' m hnode
    obtain rfl : other = bytes := hdistinct other bytes hother
      (hcontents bytes (hreads bytes hbytes)) (hmarking'.symm.trans hmarking)
    obtain ⟨src, hsrc, -, heq⟩ := hplace s hs
    rw [heq] at hthere ⊢
    exact (hobjects src f hsrc hthere).imp (fun hships => ⟨other, hreads other hbytes, hships⟩)
      .inl
  · exact .inr (.inr ⟨a, ha, hwrote.mono (hbefore.trans hafter) (.refl v)⟩)

variable (harchive : ArchiveInOrder plan tools around w)

include harchive

theorem traced_of_executableRan {reply : ToolReply}
    (hlibrary : LibraryCompiled plan tools around w l defns units answered p compiled v)
    (hran : Ran around (finalCall plan units p.included l.links)
      (v.announcing plan .linkExecutable) reply w')
    (hcontents : ∀ bytes, ReadsArchive plan tools around w w' bytes → contents bytes) :
    Traced unpacks contents
      (fun q f => left q f ∨ ∃ reply, CompilerWrote plan around w w' reply q f)
      plan.libraryDirectory w'.tree := by
  obtain ⟨u, hprepared, hsources⟩ := hlibrary.called
  have htree : (v.announcing plan .linkExecutable).tree = v.tree :=
    (v.quiet_announcing plan .linkExecutable).2
  have hlater : Later v w' := (later_announcing v plan .linkExecutable).trans hran.later
  have htraced' := traced_of_sourcesRan hcontained hw htraced htrusted hmarker hunpacks hprepared
    (fun bytes hreads => hcontents bytes (hreads.mono hlater)) hsources hlibrary.items_perm
  obtain ⟨hwf, -⟩ := frames_sourcesRan hcontained anywhere harchive hprepared hsources
    hlibrary.items_perm hw hw (orderly_of_trusted htrusted)
  obtain ⟨-, hchanged⟩ := (hcontained.executable units p.included l.links).of_ran hran
    (htree ▸ hwf)
  rw [htree, placeIn_outputPath hcontained.absolute] at hchanged
  refine (htraced'.of_noneComes (.of_spares (hchanged.spares fun _ => id) ?_)).mono ?_
  · rintro q hq rfl
    exact not_isTraced_executable _ hq
  · rintro q f (hleft | ⟨reply', hwrote⟩)
    · exact .inl hleft
    · exact .inr ⟨reply', hwrote.mono (.refl w) hlater⟩

theorem traced_of_build
    (hcontents : ∀ bytes,
      ReadsArchive plan tools around w (perform (build plan tools) around w).2 bytes →
        contents bytes) :
    Traced unpacks contents (fun q f => left q f ∨ ∃ reply,
        CompilerWrote plan around w (perform (build plan tools) around w).2 reply q f)
      plan.libraryDirectory (perform (build plan tools) around w).2.tree := by
  obtain ⟨steps, hcourse⟩ := build_takes_course plan tools around w
  generalize (perform (build plan tools) around w).1 = outcome at hcourse
  generalize (perform (build plan tools) around w).2 = w' at hcourse hcontents ⊢
  have hmore : ∀ {t}, Traced unpacks contents left plan.libraryDirectory t →
      Traced unpacks contents
        (fun q f => left q f ∨ ∃ reply, CompilerWrote plan around w w' reply q f)
        plan.libraryDirectory t := fun h => h.mono fun _ _ => .inl
  cases hcourse with
  | linkIr _ => exact hmore (w.askedToLink_tree plan ▸ htraced)
  | optimize _ _ => exact hmore (w.askedToOptimize_tree plan _ ▸ htraced)
  | @generate l defns _ _ _ hlinked hoptimized hgenerate _ _ =>
      have hafter : (codeCall plan tools around w l defns).after = w' :=
        congrArg Prod.snd hgenerate
      have hspares := Units.Call.sparing_codePlace
        (hcontained.code l defns hlinked hoptimized)
      rw [Sparing, hafter, codeCall_before_tree] at hspares
      exact hmore (htraced.of_noneComes (noneComes_of_codePlace hspares))
  | compileUnits hgenerated hcalled _ =>
      exact hmore (traced_of_unitsCalled hcontained hw htraced hgenerated hcalled)
  | @prepareLibrary l _ _ v _ _ _ hcompiled hprepare =>
      have hlater := later_prepare plan l.links around v
      have htraced' := traced_of_unitsCompiled hcontained hw htraced hmarker hunpacks hcompiled
        fun bytes hbytes => hcontents bytes ⟨_, _, _, _, v, hcompiled, by rwa [hprepare] at hlater,
          hbytes⟩
      rw [hprepare] at htraced'
      exact hmore htraced'
  | compileLibrary hprepared hran hperm _ =>
      exact traced_of_sourcesRan hcontained hw htraced htrusted hmarker hunpacks hprepared
        hcontents hran
        hperm
  | linkExecutable hlibrary hran _ =>
      exact traced_of_executableRan hcontained hw htraced htrusted hmarker hunpacks
        harchive hlibrary hran
        hcontents
  | finished hlibrary hran _ =>
      exact traced_of_executableRan hcontained hw htraced htrusted hmarker hunpacks
        harchive hlibrary hran
        hcontents

end Traced

namespace Run

/-- In a run the compiler of a source ended so and wrote a file. -/
def CompilerWrote (r : Run) (reply : ToolReply) (q : Location) (f : File) : Prop :=
  ∃ plan tools, r.task = .build plan tools ∧
    Build.CompilerWrote plan r.around r.before r.after reply q f

/-- The bytes of the archive in a run. -/
def ReadsArchive (r : Run) (bytes : List UInt8) : Prop :=
  ∃ plan tools, r.task = .build plan tools ∧
    Build.ReadsArchive plan tools r.around r.before r.after bytes

end Run

/-- The archives that runs read ship no marker, and their markings tell them apart. -/
structure ToldApart (runs : List Run) : Prop where
  shipsNoMarker : ∀ r ∈ runs, ∀ bytes, r.ReadsArchive bytes → ShipsNoMarker bytes
  distinct : ∀ r ∈ runs, ∀ e ∈ runs, ∀ bytes other, r.ReadsArchive bytes → e.ReadsArchive other →
    markingOf bytes = markingOf other → bytes = other

section History

variable {r : Run} {runs : List Run}

theorem traced_of_settle {o : Builder} {order : Order} (hw : w.tree.WellFormed)
    (hcwd : w.tree.isDirectory around.directory = true)
    (hgoal : goalOf around.directory order.workdir = goalOf [] workdir)
    (hcontained : ProbesContained around) (htrusted : Trusted (workdir / "lib") w.tree)
    (htraced : Traced unpacks contents left (workdir / "lib") w.tree) :
    Traced unpacks contents left (workdir / "lib") (perform (settle o order) around w).2.tree := by
  have hnames : ∀ s ∈ around.directory, isEntryName s = true :=
    hw.named _ (isOccupied_of_isDirectory hcwd)
  have hprobe : ∀ q, IsProbe workdir q → ¬ IsTraced (workdir / "lib") q := by
    rintro q hq htraced
    have hletter := htraced.lastLetter
    rcases hq with rfl | rfl
    all_goals
      rw [lastLetter_append _ (by simp)] at hletter
      exact absurd hletter (by decide)
  have horderly : Orderly workdir (¬ IsTraced (workdir / "lib") ·) w.tree := by
    refine ⟨htrusted, fun _ name _ hsuffix => .inl fun htraced => ?_⟩
    -- what is recorded is named like a unit
    have hletter := Units.lastLetter_of_placesOf
      (show Units.placesOf [] [workdir / name] (goalOf [] (workdir / name)) from
        ⟨_, List.mem_singleton.2 rfl, hsuffix, rfl⟩)
    rcases htraced.lastLetter with h | h
    · rw [h] at hletter
      cases hletter
    · rw [h] at hletter
      cases hletter
  obtain ⟨-, -, hspares, -⟩ := frames_settle hcontained hprobe o order hnames hgoal w hw horderly
  exact htraced.of_noneComes (.of_spares hspares fun q hq hnot => hnot hq)

theorem traced_of_run (hin : r.IsIn workdir) (hw : r.before.tree.WellFormed)
    (htrusted : Trusted (workdir / "lib") r.before.tree)
    (hunpacks : unpacks r.around.unpacker)
    (hcontents : ∀ bytes, r.ReadsArchive bytes → contents bytes)
    (hmarker : ∀ bytes, contents bytes → ShipsNoMarker bytes)
    (htraced : Traced unpacks contents left (workdir / "lib") r.before.tree) :
    Traced unpacks contents (fun q f => left q f ∨ ∃ reply, r.CompilerWrote reply q f)
      (workdir / "lib")
      r.after.tree := by
  cases hin with
  | settle hcwd hgoal hcontained =>
      exact (traced_of_settle hw hcwd hgoal hcontained htrusted htraced).mono fun _ _ => .inl
  | @build plan tools around before hplan hcontained harchive =>
      subst hplan
      refine (traced_of_build hcontained hw htraced htrusted hmarker hunpacks harchive
        fun bytes hreads => hcontents bytes ⟨plan, tools, rfl, hreads⟩).mono ?_
      rintro q f (hleft | ⟨reply, hwrote⟩)
      · exact .inl hleft
      · exact .inr ⟨reply, plan, tools, rfl, hwrote⟩

/-- Runs one after the other, from a library without a marker on: the library can be trusted, and
its objects were shipped or written by the compilers of sources. -/
theorem History.traced (hist : History workdir w runs w') (hw : w.tree.WellFormed)
    (hunmarked : Unmarked (workdir / "lib") w.tree)
    (hunpacks : ∀ r ∈ runs, unpacks r.around.unpacker)
    (hcontents : ∀ r ∈ runs, ∀ bytes, r.ReadsArchive bytes → contents bytes)
    (hmarker : ∀ bytes, contents bytes → ShipsNoMarker bytes) :
    w'.tree.WellFormed ∧ Trusted (workdir / "lib") w'.tree ∧
      Traced unpacks contents (fun q f => ∃ r ∈ runs, ∃ reply, r.CompilerWrote reply q f)
        (workdir / "lib") w'.tree := by
  obtain ⟨hwf, -, horderly⟩ := hist.frames (fun _ _ => anywhere) hw
    (orderly_of_trusted (.of_unmarked hunmarked))
  refine ⟨hwf, horderly.trusted, ?_⟩
  clear hwf horderly
  induction hist with
  | nil => exact .of_unmarked hunmarked
  | @cons r runs hist hin ih =>
      obtain ⟨hwf, -, horderly⟩ := hist.frames (fun _ _ => anywhere) hw
        (orderly_of_trusted (.of_unmarked hunmarked))
      refine (traced_of_run hin hwf horderly.trusted (hunpacks r (by simp)) (hcontents r (by simp))
        hmarker (ih (fun e he => hunpacks e (List.mem_cons_of_mem _ he))
          fun e he => hcontents e (List.mem_cons_of_mem _ he))).mono ?_
      rintro q f (⟨e, he, hwrote⟩ | hwrote)
      · exact ⟨e, List.mem_cons_of_mem _ he, hwrote⟩
      · exact ⟨r, by simp, hwrote⟩

/-- Runs one after the other in a work directory, which builds are given from the root; the last run
links. A runtime object that is there as a file when it is linked was shipped in the archive as that
run reads it, unpacked by the code of that or an earlier run, or the compiler of a source wrote it
and succeeded, or in an earlier run the compiler of a source wrote it and failed. Of an object that
is named and not there nothing is said: its compiler succeeded without writing it. -/
theorem linked_object_origin (hist : History workdir w runs r.before) (hin : r.IsIn workdir)
    (hw : w.tree.WellFormed) (hunmarked : Unmarked (workdir / "lib") w.tree)
    (htold : ToldApart (r :: runs)) (htask : r.task = .build plan tools)
    (hlibrary :
      LibraryCompiled plan tools r.around r.before l defns units answered p compiled v)
    {reply : ToolReply} (hran : Ran r.around (finalCall plan units p.included l.links)
      (v.announcing plan .linkExecutable) reply r.after)
    {s : Source} (hs : s ∈ p.included) {f : File}
    (hf : v.tree.node? (placeIn r.around.directory plan s.objectPath) = some (.file f)) :
    (∃ bytes, r.ReadsArchive bytes ∧
        ∃ e ∈ r :: runs, ShipsFile e.around.unpacker plan.libraryDirectory bytes
          (placeIn r.around.directory plan s.objectPath) f) ∨
      (∃ e ∈ r :: runs, ∃ reply, reply.isSuccess = true ∧
        e.CompilerWrote reply (placeIn r.around.directory plan s.objectPath) f) ∨
      ∃ e ∈ runs, ∃ reply, reply.isSuccess = false ∧
        e.CompilerWrote reply (placeIn r.around.directory plan s.objectPath) f := by
  cases hin with
  | settle _ _ _ => cases htask
  | @build plan' tools' around before hplan hcontained harchive =>
      cases htask
      subst hplan
      obtain ⟨contents, hcontents⟩ : ∃ contents : List UInt8 → Prop, ∀ bytes, contents bytes ↔
          ∃ e ∈ (⟨.build plan tools, around, before⟩ : Run) :: runs, e.ReadsArchive bytes :=
        ⟨_, fun _ => Iff.rfl⟩
      have hmarker : ∀ bytes, contents bytes → ShipsNoMarker bytes := by
        intro bytes hbytes
        obtain ⟨e, he, hreads⟩ := (hcontents bytes).1 hbytes
        exact htold.shipsNoMarker e he bytes hreads
      have hdistinct : ∀ bytes other, contents bytes → contents other →
          markingOf bytes = markingOf other → bytes = other := by
        intro bytes other hbytes hother
        obtain ⟨e, he, hreads⟩ := (hcontents bytes).1 hbytes
        obtain ⟨e', he', hreads'⟩ := (hcontents other).1 hother
        exact htold.distinct e he e' he' bytes other hreads hreads'
      obtain ⟨unpacks, hunpacks⟩ : ∃ unpacks : Archive.Unpackers → Prop, ∀ unpackers,
          unpacks unpackers ↔ ∃ e ∈ (⟨.build plan tools, around, before⟩ : Run) :: runs,
            unpackers = e.around.unpacker := ⟨_, fun _ => Iff.rfl⟩
      obtain ⟨hwf, htrusted, htraced⟩ := hist.traced hw hunmarked
        (fun e he => (hunpacks _).2 ⟨e, List.mem_cons_of_mem _ he, rfl⟩)
        (fun e he bytes hreads => (hcontents bytes).2 ⟨e, List.mem_cons_of_mem _ he, hreads⟩)
        hmarker
      have hlater := (later_announcing v plan .linkExecutable).trans hran.later
      rcases object_origin hcontained hwf htraced htrusted hmarker
          ((hunpacks _).2 ⟨_, List.mem_cons_self, rfl⟩) hlibrary
          (fun bytes hreads => (hcontents bytes).2
            ⟨_, List.mem_cons_self, plan, tools, rfl, hreads.mono hlater⟩) hdistinct hs hf with
        ⟨bytes, hreads, unpackers, hknown, hships⟩ | ⟨e, he, reply', hwrote⟩ | ⟨a, ha, hwrote⟩
      · obtain ⟨e, he, rfl⟩ := (hunpacks unpackers).1 hknown
        exact .inl ⟨bytes, ⟨plan, tools, rfl, hreads.mono hlater⟩, e, he, hships⟩
      · cases hsuccess : reply'.isSuccess with
        | true => exact .inr (.inl ⟨e, List.mem_cons_of_mem _ he, reply', hsuccess, hwrote⟩)
        | false => exact .inr (.inr ⟨e, he, reply', hsuccess, hwrote⟩)
      · exact .inr (.inl ⟨_, List.mem_cons_self, a.reply, hlibrary.succeeded a ha, plan, tools, rfl,
          hwrote.mono (.refl before) hlater⟩)

end History

section FailingSources

/-- Tools that write one byte. The compilers of sources fail all the same. -/
def failingSources (command : List String) : ToolReply × List UInt8 :=
  if "-O2" ∈ command then (.exited 1 [] [], [66]) else (.exited 0 [] [], [79])

/-- A build that fails at the only source. -/
def buildingFailed : Run where
  task := .build planOfA (Units.toolsWriting (.parse "/w/main.ll") (.ok ()))
  around := aroundOfA failingSources
  before := .ofTree diskOfA

def buildingAgain : Run where
  task := .build planOfA (Units.toolsWriting (.parse "/w/main.ll") (.ok ()))
  around := aroundOfA failingSources
  before := buildingFailed.after

theorem history_failed : History (.parse "/w") (.ofTree diskOfA) [buildingFailed]
    buildingAgain.before :=
  .cons .nil (isIn_building .nil wellFormed_diskOfA (by decide) (by decide)
    (by decide +kernel))

theorem isIn_buildingAgain : buildingAgain.IsIn (.parse "/w") :=
  isIn_building history_failed wellFormed_diskOfA (by decide) (by decide) (by decide +kernel)

theorem eq_of_readsArchive {r : Run} (hr : r ∈ [buildingAgain, buildingFailed])
    {bytes : List UInt8} (h : r.ReadsArchive bytes) : bytes = archiveOfA := by
  have hist : History (.parse "/w") (.ofTree diskOfA) [buildingAgain, buildingFailed]
      buildingAgain.after := .cons history_failed isIn_buildingAgain
  obtain ⟨hin, earlier, hearlier, -⟩ := hist.of_mem hr
  have htask : r.task = .build planOfA (Units.toolsWriting (.parse "/w/main.ll") (.ok ())) ∧
      r.around.directory = [] := by
    rcases List.mem_pair.1 hr with rfl | rfl <;> exact ⟨rfl, rfl⟩
  obtain ⟨plan, tools, htask', l, defns, units, answered, v, hcompiled, -, hbytes⟩ := h
  obtain ⟨rfl, rfl⟩ : planOfA = plan ∧
      Units.toolsWriting (.parse "/w/main.ll") (.ok ()) = tools := by
    cases htask.1.symm.trans htask'
    exact ⟨rfl, rfl⟩
  obtain ⟨hwf, -, horderly⟩ := frames_before_building hearlier wellFormed_diskOfA (by decide)
  have hcontained : Contained planOfA (Units.toolsWriting (.parse "/w/main.ll") (.ok ()))
      r.around r.before := by
    generalize htask'' : r.task = task at htask'
    cases hin with
    | settle _ _ _ => cases htask''.trans htask'
    | build _ hcontained _ =>
        cases htask''.trans htask'
        exact hcontained
  have hbeside : ¬ goalOf [] planOfA.workdir <+: goalOf r.around.directory planOfA.archive := by
    rw [htask.2]
    decide
  obtain ⟨f, hf, rfl⟩ := exists_file_of_untouched hcontained (fun q hq => hq.isBelow) hwf horderly
    hbeside hcompiled hbytes
  rw [htask.2] at hf
  exact bytes_of_archive hearlier wellFormed_diskOfA (by decide) (by decide) hf

theorem toldApart_again : ToldApart [buildingAgain, buildingFailed] where
  shipsNoMarker _ hr _ hreads := eq_of_readsArchive hr hreads ▸ shipsNoMarker_archiveOfA
  distinct _ hr _ he _ _ hreads hreads' _ :=
    (eq_of_readsArchive hr hreads).trans (eq_of_readsArchive he hreads').symm

theorem exists_link_of_evaluated {r : Run} (there : Bool)
    (htask : r.task = .build planOfA (Units.toolsWriting (.parse "/w/main.ll") (.ok ())))
    (hevaluated : (perform (build planOfA (Units.toolsWriting (.parse "/w/main.ll") (.ok ())))
        r.around r.before).1.toOption.map (fun b => (b.units, b.library.objects)) =
        some ([.parse "/w/main.ll"], [.parse "/w/lib/a.c.o"]) ∧
      (lastRunOn? r.after.history).map (fun t => t.isFile ["w", "lib", "a.c.o"]) = some there) :
    ∃ answered p compiled v reply s,
      LibraryCompiled planOfA (Units.toolsWriting (.parse "/w/main.ll") (.ok ())) r.around r.before
        (.ofLists [] [] []) [] [.parse "/w/main.ll"] answered p compiled v ∧
      Ran r.around (finalCall planOfA [.parse "/w/main.ll"] p.included [])
        (v.announcing planOfA .linkExecutable) reply r.after ∧
      s ∈ p.included ∧ placeIn [] planOfA s.objectPath = ["w", "lib", "a.c.o"] ∧
      v.tree.isFile ["w", "lib", "a.c.o"] = there := by
  obtain ⟨hresult, hlast⟩ := hevaluated
  have hafter := Run.after_of_build htask
  rcases hbuild : perform (build planOfA (Units.toolsWriting (.parse "/w/main.ll") (.ok ())))
      r.around r.before with ⟨fault | b, w'⟩
  · rw [hbuild] at hresult
    cases hresult
  · rw [hbuild] at hresult
    obtain ⟨hunits, hobjects⟩ := Prod.mk.inj (Option.some.inj hresult)
    obtain ⟨l, defns, answered, p, compiled, v, reply, hlibrary, hincluded, hran⟩ :=
      exists_link_of_ok planOfA _ _ _ (congrArg Prod.fst hbuild)
    obtain ⟨v', hprepared, -⟩ := hlibrary.called
    obtain ⟨u, hcompiled, -⟩ := hprepared.prepared
    obtain ⟨u', hgenerated, -⟩ := hcompiled.called
    -- such a toolchain links and optimizes nothing
    obtain rfl : Linked.ofLists [] [] [] = l := Except.ok.inj hgenerated.linked
    obtain rfl : [] = defns := Except.ok.inj hgenerated.optimized
    rw [hunits] at hlibrary hran
    rw [show b.library.objects = _ from hobjects] at hincluded
    obtain ⟨s, hs, hobject⟩ := List.mem_map.1
      (hincluded ▸ List.mem_singleton.2 rfl : Path.parse "/w/lib/a.c.o" ∈ _)
    have hlinked : Ran r.around (finalCall planOfA [.parse "/w/main.ll"] p.included [])
        (v.announcing planOfA .linkExecutable) reply r.after := hafter ▸ hran
    rw [lastRunOn?_of_ran hlinked, (v.quiet_announcing planOfA .linkExecutable).2] at hlast
    have hplace : placeIn [] planOfA s.objectPath = ["w", "lib", "a.c.o"] := by
      rw [hobject]
      decide
    exact ⟨answered, p, compiled, v, reply, s, hlibrary, hlinked, hs, hplace,
      Option.some.inj hlast⟩

theorem exists_link_again : ∃ answered p compiled v reply s f,
    LibraryCompiled planOfA (Units.toolsWriting (.parse "/w/main.ll") (.ok ()))
      buildingAgain.around buildingAgain.before (.ofLists [] [] []) [] [.parse "/w/main.ll"]
      answered p compiled v ∧
    Ran buildingAgain.around (finalCall planOfA [.parse "/w/main.ll"] p.included [])
      (v.announcing planOfA .linkExecutable) reply buildingAgain.after ∧
    s ∈ p.included ∧ placeIn [] planOfA s.objectPath = ["w", "lib", "a.c.o"] ∧
    v.tree.node? ["w", "lib", "a.c.o"] = some (.file f) := by
  obtain ⟨answered, p, compiled, v, reply, s, hlibrary, hran, hs, hplace, hfile⟩ :=
    exists_link_of_evaluated (r := buildingAgain) true rfl (by decide +kernel)
  obtain ⟨f, hf⟩ := isFile_iff.1 hfile
  exact ⟨answered, p, compiled, v, reply, s, f, hlibrary, hran, hs, hplace, hf⟩

/-- Tools that end with zero. The compilers of sources write nothing all the same. -/
def writingNoObject (call : Invocation) (w : World) : ToolReply × FileTree :=
  if "-O2" ∈ call.command then (.exited 0 [] [], w.tree) else outputTool [] succeeding call w

/-- A build whose compilers of sources write nothing. -/
def buildingWithout : Run where
  task := .build planOfA (Units.toolsWriting (.parse "/w/main.ll") (.ok ()))
  around := { Surroundings.still [] with tool := writingNoObject }
  before := .ofTree diskOfA

/-- What the second build links was shipped, or written by a compiler. -/
theorem origin_of_object_linked_again : ∃ answered p compiled v reply s f,
    LibraryCompiled planOfA (Units.toolsWriting (.parse "/w/main.ll") (.ok ()))
      buildingAgain.around buildingAgain.before (.ofLists [] [] []) [] [.parse "/w/main.ll"]
      answered p compiled v ∧
    Ran buildingAgain.around (finalCall planOfA [.parse "/w/main.ll"] p.included [])
      (v.announcing planOfA .linkExecutable) reply buildingAgain.after ∧
    s ∈ p.included ∧ v.tree.node? (placeIn [] planOfA s.objectPath) = some (.file f) ∧
    ((∃ bytes, buildingAgain.ReadsArchive bytes ∧ ∃ e ∈ [buildingAgain, buildingFailed],
        ShipsFile e.around.unpacker planOfA.libraryDirectory bytes
          (placeIn [] planOfA s.objectPath) f) ∨
      (∃ e ∈ [buildingAgain, buildingFailed], ∃ reply, reply.isSuccess = true ∧
        e.CompilerWrote reply (placeIn [] planOfA s.objectPath) f) ∨
      ∃ e ∈ [buildingFailed], ∃ reply, reply.isSuccess = false ∧
        e.CompilerWrote reply (placeIn [] planOfA s.objectPath) f) := by
  obtain ⟨answered, p, compiled, v, reply, s, f, hlibrary, hran, hs, hplace, hf⟩ :=
    exists_link_again
  have hunmarked : Unmarked (Path.parse "/w" / "lib") diskOfA := by
    unfold Unmarked
    decide
  rw [← hplace] at hf
  exact ⟨answered, p, compiled, v, reply, s, f, hlibrary, hran, hs, hf,
    linked_object_origin history_failed isIn_buildingAgain wellFormed_diskOfA hunmarked
      toldApart_again rfl hlibrary hran hs hf⟩

theorem not_isSuccess_of_failingSources {r : Run} (hr : r ∈ [buildingAgain, buildingFailed])
    {reply : ToolReply} {q : Location} {f : File} (h : r.CompilerWrote reply q f) :
    reply.isSuccess = false := by
  have haround : r.around = aroundOfA failingSources := by
    rcases List.mem_pair.1 hr with rfl | rfl <;> rfl
  obtain ⟨plan, tools, -, s, v, v', ⟨w₁, -, -, htool, -⟩, -⟩ := h
  rw [haround] at htool
  have hoption : "-O2" ∈ (sourceCall plan s).command := by
    simp [sourceCall, NativeLibrary.command]
  have hreply : reply = (outputTool [] failingSources (sourceCall plan s) w₁).1 :=
    (congrArg Prod.fst htool).symm
  have hmade : (failingSources (sourceCall plan s).command).1 = .exited 1 [] [] := by
    rw [failingSources, if_pos hoption]
  rw [hreply, outputTool]
  split
  · rw [hmade]
    rfl
  · dsimp only
    split
    · split
      · rw [hmade]
        rfl
      · rfl
    · rfl

theorem not_shipsFile_object {f : File} :
    ¬ ShipsFile (aroundOfA failingSources).unpacker planOfA.libraryDirectory archiveOfA
      ["w", "lib", "a.c.o"] f := by
  rintro ⟨t, hfilled, hf⟩
  -- a copy that is made in an empty work directory
  obtain ⟨w, hw⟩ : ∃ w : World, w = .ofTree (diskOfA.add ["w"] .directory) := ⟨_, rfl⟩
  have hrenewed :
      (perform ((copyOf planOfA).renew writeManifest) (aroundOfA failingSources) w).1.isOk
        = true ∧
      (perform ((copyOf planOfA).renew writeManifest) (aroundOfA failingSources) w).2.tree.isFile
        ["w", "lib", "a.c.o"] = false := by
    rw [hw]
    decide +kernel
  have hwf : w.tree.WellFormed := by
    rw [hw]
    decide
  have hleads : LeadsToDirectory planOfA.workdir w.tree [] := by
    rw [hw]
    rfl
  have hread : bytesAt planOfA.archive w.tree [] = .ok archiveOfA := by
    rw [hw]
    rfl
  rcases hperform : perform ((copyOf planOfA).renew writeManifest) (aroundOfA failingSources) w with
    ⟨fault | _, w'⟩
  · rw [hperform] at hrenewed
    cases hrenewed.1
  · rw [hperform] at hrenewed
    obtain ⟨bytes, hbytes, hcopy⟩ := filled_of_perform_renew rfl hwf hleads hperform
    obtain rfl : archiveOfA = bytes := Except.ok.inj (hread.symm.trans hbytes)
    have hsame := hfilled.node?_eq rfl hcopy ["a.c.o"]
    rw [show goalOf [] planOfA.libraryDirectory ++ ["a.c.o"] = ["w", "lib", "a.c.o"] by
      decide, hf] at hsame
    have hfile := isFile_iff.2 ⟨f, hsame.symm⟩
    rw [hrenewed.2] at hfile
    cases hfile

/-- The second build links an object that was not shipped, and no compiler that succeeded wrote it.
Where compilers succeed and write nothing, an object is linked that is not there. -/
theorem failed_object_is_linked : (∃ answered p compiled v reply s f,
    History (.parse "/w") (.ofTree diskOfA) [buildingFailed] buildingAgain.before ∧
    buildingAgain.IsIn (.parse "/w") ∧
    LibraryCompiled planOfA (Units.toolsWriting (.parse "/w/main.ll") (.ok ()))
      buildingAgain.around buildingAgain.before (.ofLists [] [] []) [] [.parse "/w/main.ll"]
      answered p compiled v ∧
    Ran buildingAgain.around (finalCall planOfA [.parse "/w/main.ll"] p.included [])
      (v.announcing planOfA .linkExecutable) reply buildingAgain.after ∧
    s ∈ p.included ∧ v.tree.node? (placeIn [] planOfA s.objectPath) = some (.file f) ∧
    ¬ (∃ bytes, buildingAgain.ReadsArchive bytes ∧ ∃ e ∈ [buildingAgain, buildingFailed],
      ShipsFile e.around.unpacker planOfA.libraryDirectory bytes
        (placeIn [] planOfA s.objectPath) f) ∧
    ¬ ∃ e ∈ [buildingAgain, buildingFailed], ∃ reply, reply.isSuccess = true ∧
      e.CompilerWrote reply (placeIn [] planOfA s.objectPath) f) ∧
    ∃ answered p compiled v reply s,
      LibraryCompiled planOfA (Units.toolsWriting (.parse "/w/main.ll") (.ok ()))
        buildingWithout.around buildingWithout.before (.ofLists [] [] []) [] [.parse "/w/main.ll"]
        answered p compiled v ∧
      Ran buildingWithout.around (finalCall planOfA [.parse "/w/main.ll"] p.included [])
        (v.announcing planOfA .linkExecutable) reply buildingWithout.after ∧
      s ∈ p.included ∧ v.tree.isFile (placeIn [] planOfA s.objectPath) = false := by
  constructor
  · obtain ⟨answered, p, compiled, v, reply, s, f, hlibrary, hran, hs, hplace, hf⟩ :=
      exists_link_again
    rw [← hplace] at hf
    refine ⟨answered, p, compiled, v, reply, s, f, history_failed, isIn_buildingAgain, hlibrary,
      hran, hs, hf, ?_, ?_⟩
    · rintro ⟨bytes, hreads, e, he, hships⟩
      have haround : e.around = aroundOfA failingSources := by
        rcases List.mem_pair.1 he with rfl | rfl <;> rfl
      rw [eq_of_readsArchive (by simp) hreads, hplace, haround] at hships
      exact not_shipsFile_object hships
    · rintro ⟨e, he, reply', hsuccess, hwrote⟩
      rw [not_isSuccess_of_failingSources he hwrote] at hsuccess
      cases hsuccess
  · obtain ⟨answered, p, compiled, v, reply, s, hlibrary, hran, hs, hplace, hnone⟩ :=
      exists_link_of_evaluated (r := buildingWithout) false rfl (by decide +kernel)
    exact ⟨answered, p, compiled, v, reply, s, hlibrary, hran, hs, hplace ▸ hnone⟩

end FailingSources

end StagedBuild.Build
