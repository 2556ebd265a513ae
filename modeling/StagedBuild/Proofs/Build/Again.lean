import StagedBuild.Proofs.Build.Frame
import StagedBuild.Proofs.Build.Writing
import StagedBuild.Proofs.NativeLibrary.Anew
import StagedBuild.Proofs.Units.Again

/-!
Building once more. A build that succeeded leaves a library that is ready and units that can be
written again. When the toolchain then does what it did, the next build makes the same calls but
those for the sources of the library.
-/

namespace StagedBuild.Build

open Action FileTree Disk NativeLibrary Manifest

variable {plan : Plan} {tools : IrTools} {around : Surroundings} {w v w' : World} {l : Linked}
  {defns : List Definition} {units : List Path} {bytes : List UInt8} {ways : List Location}
  {t t' : FileTree} {cwd : Location} {answered : List (Pool.Answered Path)}

/-- No earlier build has left anything in the place of the library: there is no marker, and nothing
that a build takes for a unit. The current directory is not in it. -/
structure Unbuilt (cwd : Location) (plan : Plan) (t : FileTree) : Prop where
  unmarked : ¬ t.isFile (goalOf cwd plan.libraryDirectory ++ [markerName]) = true
  units : ∀ way, Units.IsUnitWay way →
    ¬ t.isOccupied (goalOf cwd plan.libraryDirectory ++ way) = true
  apart : ¬ goalOf cwd plan.libraryDirectory <+: cwd

theorem not_isOccupied_below {loc : Location} (hw : t.WellFormed) (h : t.node? loc = none)
    (way : Location) : ¬ t.isOccupied (loc ++ way) = true := by
  intro hocc
  refine not_isOccupied_iff.2 h ?_
  by_cases hway : way = []
  · rwa [hway, List.append_nil] at hocc
  · exact isOccupied_of_isDirectory (hw.isDirectory_above hocc hway)

theorem Unbuilt.of_absent (hw : t.WellFormed) (hcwd : t.isDirectory cwd = true)
    (h : t.node? (goalOf cwd plan.libraryDirectory) = none) : Unbuilt cwd plan t := by
  have hnone := not_isOccupied_below hw h
  refine ⟨fun hfile => hnone _ (isOccupied_of_isFile hfile), fun way _ => hnone way, ?_⟩
  rintro ⟨way, hway⟩
  refine hnone way ?_
  rw [hway]
  exact isOccupied_of_isDirectory hcwd

/-- Every tool of a build writes its output where that can be written. -/
structure ToolsWrite (around : Surroundings) (plan : Plan) : Prop where
  units : ∀ way, Units.IsUnitWay way → (∀ s ∈ way, isEntryName s = true) →
    WritesOutput around (unitCall plan (plan.workdir.descend way))
      (plan.workdir.descend way).objectPath
  sources : ∀ src, IsSourceWay src → WritesOutput around
    (sourceCall plan (sourceAt plan.libraryDirectory (plan.libraryDirectory.descend src)))
    (sourceAt plan.libraryDirectory (plan.libraryDirectory.descend src)).objectPath
  final : ∀ units included links,
    WritesOutput around (finalCall plan units included links) plan.outputPath

section Units

variable {g : World} (hready : UnitsReady around plan units t g.tree)
  (habsolute : plan.workdir.isAbsolute = true) (htools : ToolsWrite around plan)
  (hcalled : CalledEach plan around .compileUnits (unitCall plan) units g answered v)

include hready habsolute htools hcalled

theorem CalledEach.writesOutput : ∀ a ∈ answered,
    WritesOutput around (unitCall plan a.item) a.item.objectPath := by
  intro a ha
  obtain ⟨way, hunit, hnames, heq, -⟩ := hready.exists_way habsolute
    (hcalled.items_perm.subset (List.mem_map_of_mem ha))
  rw [heq]
  exact htools.units way hunit hnames

theorem CalledEach.succeeds (hcan : ∀ u ∈ units,
      CanWrite g.tree (goalOf around.directory plan.workdir) u.objectPath) :
    ∀ a ∈ answered, a.reply.isSuccess = true := by
  have htree := (g.quiet_announcing plan .compileUnits).2
  refine hcalled.ran.succeed (hcalled.writesOutput hready habsolute htools) (fun a ha => ?_)
    (htree ▸ hready.wellFormed)
  rw [htree]
  exact hcan a.item (hcalled.items_perm.subset (List.mem_map_of_mem ha))

variable (hall : ∀ a ∈ answered, a.reply.isSuccess = true)

include hall

theorem CalledEach.canWrite : ∀ u ∈ units,
    CanWrite g.tree (goalOf around.directory plan.workdir) u.objectPath := by
  have htree := (g.quiet_announcing plan .compileUnits).2
  intro u hu
  obtain ⟨a, ha, rfl⟩ := List.mem_map.1 (hcalled.items_perm.symm.subset hu)
  have hcan := hcalled.ran.canWrite (hcalled.writesOutput hready habsolute htools) hall
    (htree ▸ hready.wellFormed) a ha
  rwa [htree] at hcan

theorem CalledEach.filesChanged : v.tree.WellFormed ∧
    FilesChanged (Units.ObjectPlace (goalOf around.directory plan.workdir)) g.tree v.tree := by
  have htree := (g.quiet_announcing plan .compileUnits).2
  obtain ⟨hwf, hchanged, -⟩ := hcalled.ran.delivered
    (fun u => placeIn around.directory plan u.objectPath)
    (fun a ha => (hcalled.writesOutput hready habsolute htools a ha).delivers) hall
    (htree ▸ hready.wellFormed)
  rw [htree] at hchanged
  refine ⟨hwf, hchanged.mono ?_⟩
  rintro q ⟨a, ha, rfl⟩
  obtain ⟨way, hunit, -, -, hplace⟩ := hready.exists_way habsolute
    (hcalled.items_perm.subset (List.mem_map_of_mem ha))
  exact ⟨way, hunit, hplace⟩

end Units

section Places

variable {q : Location}

theorem not_codePlace_of_lastLetter (hl : lastLetter q ≠ some 'l') (hn : lastLetter q ≠ some 'n') :
    ¬ Units.CodePlace cwd plan.workdir q := by
  rintro (hletter | rfl)
  · exact hl hletter
  · exact hn (lastLetter_concat _ _)

theorem lastLetter_archive (hknown : plan.archive.suffix ∈ Archive.knownSuffixes)
    (cwd : Location) : lastLetter (goalOf cwd plan.archive) = some 'r' ∨
      lastLetter (goalOf cwd plan.archive) = some 'p' := by
  simp only [Archive.knownSuffixes, List.mem_cons, List.not_mem_nil, or_false] at hknown
  exact hknown.imp (fun h => lastLetter_goalOf cwd h (by decide) (by decide))
    fun h => lastLetter_goalOf cwd h (by decide) (by decide)

theorem not_codePlace_archive (hknown : plan.archive.suffix ∈ Archive.knownSuffixes) :
    ¬ Units.CodePlace cwd plan.workdir (goalOf cwd plan.archive) := by
  rcases lastLetter_archive hknown cwd with hletter | hletter <;>
    exact not_codePlace_of_lastLetter (by rw [hletter]; decide) (by rw [hletter]; decide)

theorem not_objectPlace_archive {base : Location}
    (hknown : plan.archive.suffix ∈ Archive.knownSuffixes) :
    ¬ Units.ObjectPlace base (goalOf cwd plan.archive) := by
  refine not_objectPlace_of_lastLetter ?_
  rcases lastLetter_archive hknown cwd with hletter | hletter <;> rw [hletter] <;> decide

theorem output_outside (habsolute : plan.workdir.isAbsolute = true) :
    ¬ goalOf [] plan.libraryDirectory <+: placeIn cwd plan plan.outputPath := by
  rw [placeIn_outputPath habsolute, goalOf_libraryDirectory, List.prefix_append_right_inj]
  decide

theorem lastLetter_output (habsolute : plan.workdir.isAbsolute = true) :
    lastLetter (placeIn cwd plan plan.outputPath) = some 't' := by
  rw [placeIn_outputPath habsolute, lastLetter_concat]
  decide

end Places

/-- What stands in a new copy of the archive does not get in the way of units. Nothing in it is
taken for a unit, no directory is in the place of the object of a unit, and code generation left
none in the place of the object of a source that is left out. -/
structure ShipsApart (cwd : Location) (plan : Plan) (units : List Path) (links : List String)
    (left t : FileTree) : Prop where
  noUnits : ∀ way, Units.IsUnitWay way →
    ¬ t.isOccupied (goalOf [] plan.libraryDirectory ++ way) = true
  objects : ∀ u ∈ units, goalOf [] plan.libraryDirectory <+: placeIn cwd plan u.objectPath →
    ¬ t.isDirectory (placeIn cwd plan u.objectPath) = true
  others : ∀ src, IsSourceWay src → t.isFile (goalOf [] plan.libraryDirectory ++ src) = true →
    ¬ isNeededAt plan.libraryDirectory plan.gc links src = true →
    ¬ left.isDirectory (objectAt plan.libraryDirectory src) = true

/-- What a build has left when it succeeds, and what code generation had left in it: the library is
ready, and outside of it only objects and the executable have come. -/
structure Settled (cwd : Location) (plan : Plan) (units : List Path) (links : List String)
    (bytes : List UInt8) (ways : List Location) (left t : FileTree) : Prop where
  ready : Ready cwd plan links bytes ways t
  known : plan.archive.suffix ∈ Archive.knownSuffixes
  directories : ∀ q, ¬ goalOf [] plan.libraryDirectory <+: q →
    t.isDirectory q = left.isDirectory q
  elsewhere : ∀ q, ¬ goalOf [] plan.libraryDirectory <+: q → lastLetter q ≠ some 'o' →
    q ≠ placeIn cwd plan plan.outputPath → t.node? q = left.node? q
  unitsGone : ∀ way, Units.IsUnitWay way →
    ¬ t.isOccupied (goalOf [] plan.libraryDirectory ++ way) = true
  objects : ∀ u ∈ units, ¬ t.isDirectory (placeIn cwd plan u.objectPath) = true
  others : ∀ src ∈ ways, ¬ isNeededAt plan.libraryDirectory plan.gc links src = true →
    ¬ left.isDirectory (objectAt plan.libraryDirectory src) = true
  output : CanWrite t (goalOf cwd plan.workdir) plan.outputPath

section Compiled

variable {g : World} (hready : UnitsReady around plan units w.tree g.tree)
  (hobjects : FilesChanged (Units.ObjectPlace (goalOf around.directory plan.workdir)) g.tree v.tree)

include hready hobjects

/-- Compiling the units makes no marker: where there was none before the build, the copy is stale
when the library is prepared. -/
theorem isFresh_ne_of_unmarked
    (hunmarked :
      ¬ w.tree.isFile (goalOf around.directory plan.libraryDirectory ++ [markerName]) = true) :
    perform (copyOf plan).isFresh around v ≠ (.ok true, v) := by
  intro hfresh
  obtain ⟨-, f, -, hf, -⟩ := of_perform_isFresh hfresh
  have hplace : ¬ Units.ObjectPlace (goalOf around.directory plan.workdir)
      (goalOf around.directory plan.libraryDirectory ++ [markerName]) :=
    not_objectPlace_of_lastLetter (by rw [lastLetter_append _ (by simp)]; decide)
  rw [hobjects.node?_eq hplace] at hf
  exact hunmarked (isFile_iff.2 ⟨f, hready.spares.node?_of_file
    (not_codePlace_library (by simp) (by decide)) hf⟩)

/-- The archive that is read for the library stood there before the build. -/
theorem exists_archive_before (hknown : plan.archive.suffix ∈ Archive.knownSuffixes)
    (harchive : bytesAt plan.archive v.tree around.directory = .ok bytes) :
    ∃ f, f.bytes = bytes ∧
      w.tree.node? (goalOf around.directory plan.archive) = some (.file f) := by
  obtain ⟨-, -, f, hf, hbytes⟩ := bytesAt_eq_ok_iff.1 harchive
  rw [hobjects.node?_eq (not_objectPlace_archive hknown)] at hf
  exact ⟨f, hbytes, hready.spares.node?_of_file (not_codePlace_archive hknown) hf⟩

end Compiled

/-- The final link of a library that is ready leaves it ready. -/
theorem ready_of_linked {links : List String} (habsolute : plan.workdir.isAbsolute = true)
    (hknown : plan.archive.suffix ∈ Archive.knownSuffixes)
    (h : Ready cwd plan links bytes ways t) (hwf : t'.WellFormed)
    (hlinked : FilesChanged (· = placeIn cwd plan plan.outputPath) t t') :
    Ready cwd plan links bytes ways t' := by
  have hbelow : ∀ way, goalOf [] plan.libraryDirectory ++ way ≠
      placeIn cwd plan plan.outputPath := fun way heq => output_outside habsolute ⟨way, heq⟩
  refine h.of_filesChanged hlinked hwf (fun name _ => hbelow [name])
    (fun src _ => ⟨hbelow src, hbelow (objectWay src)⟩) fun heq => ?_
  have hletter := lastLetter_archive hknown cwd
  rw [heq, lastLetter_output habsolute] at hletter
  exact absurd hletter (by decide)

theorem ToolsWrite.of_final_ran (htools : ToolsWrite around plan) {included : List Source}
    {links : List String} {reply : ToolReply}
    (hran : Ran around (finalCall plan units included links) (v.announcing plan .linkExecutable)
      reply w') (hsuccess : reply.isSuccess = true) (hwf : v.tree.WellFormed) :
    w'.tree.WellFormed ∧
      FilesChanged (· = placeIn around.directory plan plan.outputPath) v.tree w'.tree ∧
      CanWrite w'.tree (goalOf around.directory plan.workdir) plan.outputPath := by
  have hfinal := htools.final units included links
  have htree := (v.quiet_announcing plan .linkExecutable).2
  obtain ⟨hwf', hlinked, -⟩ := hfinal.delivers.of_ran hran hsuccess (htree ▸ hwf)
  have houtput := (hfinal.succeeds_iff hran (htree ▸ hwf)).1 hsuccess
  exact ⟨hwf', htree ▸ hlinked, houtput.congr hlinked.isDirectory_eq⟩

/-- The disk through a build, from what code generation has left: units are compiled, a copy is
made, its sources are compiled, and the executable is linked. -/
theorem Settled.of_stages {u : World} {links : List String}
    (habsolute : plan.workdir.isAbsolute = true)
    (hknown : plan.archive.suffix ∈ Archive.knownSuffixes)
    (hcan : ∀ u ∈ units, CanWrite t (goalOf cwd plan.workdir) u.objectPath)
    (hobjects : FilesChanged (Units.ObjectPlace (goalOf cwd plan.workdir)) t t')
    (houtside : ∀ q, ¬ goalOf [] plan.libraryDirectory <+: q → u.tree.node? q = t'.node? q)
    (hcopied : Copied plan.libraryDirectory bytes ways u.tree)
    (hshipped : ShipsApart cwd plan units links t u.tree)
    (hchanged : ObjectsChanged plan.libraryDirectory ways u v)
    (hlibrary : Ready cwd plan links bytes ways v.tree)
    (hlinked : FilesChanged (· = placeIn cwd plan plan.outputPath) v.tree w'.tree)
    (hwf : w'.tree.WellFormed)
    (houtput : CanWrite w'.tree (goalOf cwd plan.workdir) plan.outputPath) :
    Settled cwd plan units links bytes ways t w'.tree := by
  have hdirs : ∀ q, w'.tree.isDirectory q = u.tree.isDirectory q := fun q =>
    (hlinked.isDirectory_eq q).trans (hchanged.isDirectory_eq q)
  refine ⟨ready_of_linked habsolute hknown hlibrary hwf hlinked, hknown, fun q hq => ?_,
    fun q hq hletter hne => ?_, fun way hunit hocc => ?_, fun a ha hdir => ?_,
    fun src hsrc hother => ?_, houtput⟩
  · rw [hdirs, isDirectory_congr (houtside q hq), hobjects.isDirectory_eq]
  · rw [hlinked.node?_eq hne, hchanged.1 q hq, houtside q hq,
      hobjects.node?_eq (not_objectPlace_of_lastLetter hletter)]
  · have hne : goalOf [] plan.libraryDirectory ++ way ≠ placeIn cwd plan plan.outputPath :=
      fun heq => output_outside habsolute ⟨way, heq⟩
    refine hshipped.noUnits way hunit ?_
    rw [isOccupied_congr (hlinked.node?_eq hne),
      isOccupied_congr (hchanged.2.node?_eq fun src _ heq => ?_)] at hocc
    · exact hocc
    · exact objectWay_ne_unitWay hunit heq.symm
  · by_cases hinside : goalOf [] plan.libraryDirectory <+: placeIn cwd plan a.objectPath
    · exact hshipped.objects a ha hinside (hdirs _ ▸ hdir)
    · rw [hdirs, isDirectory_congr (houtside _ hinside), hobjects.isDirectory_eq] at hdir
      exact (hcan a ha).free hdir
  · obtain ⟨hsource, hfile⟩ := (hcopied.sources src).1 hsrc
    exact hshipped.others src hsource hfile hother

section First

variable {p : Preparation} {compiled : List (Pool.Answered Source)} {reply : ToolReply}
  (habsolute : plan.workdir.isAbsolute = true) (hw : w.tree.WellFormed)
  (hcwd : w.tree.isDirectory around.directory = true)
  (hcode : (codeCall plan tools around w l defns).WritesOnlyUnits)
  (htools : ToolsWrite around plan) (hfirst : Unbuilt around.directory plan w.tree)
  (hships : ∀ f t, w.tree.node? (goalOf around.directory plan.archive) = some (.file f) →
    Filled around.unpacker plan.libraryDirectory f.bytes t →
      ShipsApart around.directory plan units l.links
      (codeCall plan tools around w l defns).after.tree t)

include habsolute hw hcwd hcode htools hfirst hships

/-- A build that succeeds where there was none before leaves everything settled. -/
theorem LibraryCompiled.settled
    (h : LibraryCompiled plan tools around w l defns units answered p compiled v)
    (hran : Ran around (finalCall plan units p.included l.links) (v.announcing plan .linkExecutable)
      reply w') (hsuccess : reply.isSuccess = true) :
    ∃ bytes ways, Settled around.directory plan units l.links bytes ways
        (codeCall plan tools around w l defns).after.tree w'.tree ∧
      p.included = sourcesAt plan.libraryDirectory
        (neededWays plan.libraryDirectory plan.gc l.links ways) ∧
      ∀ u ∈ units, CanWrite (codeCall plan tools around w l defns).after.tree
        (goalOf around.directory plan.workdir) u.objectPath := by
  have hlib := isAbsolute_libraryDirectory habsolute
  obtain ⟨y, ⟨⟨x, ⟨⟨g, hgenerated, hcalled⟩, hall⟩, hprepare⟩, -⟩, hsources⟩ := h.called
  have hready := hgenerated.ready hcode hw hcwd
  have hleft := hgenerated.after_codeCall
  rw [hleft] at hships ⊢
  have hcan := hcalled.canWrite hready habsolute htools hall
  obtain ⟨hwf, hobjects⟩ := hcalled.filesChanged hready habsolute htools hall
  obtain ⟨z, hz⟩ : ∃ z, z = x.announcing plan .compileLibrary := ⟨_, rfl⟩
  have htree : z.tree = x.tree := hz ▸ (x.quiet_announcing plan .compileLibrary).2
  rw [← hz] at hprepare
  rw [← htree] at hwf hobjects
  have hstale := isFresh_ne_of_unmarked hready hobjects hfirst.unmarked
  have hleads : LeadsToDirectory plan.workdir z.tree around.directory :=
    hready.leads.mono fun q hq => (hobjects.isDirectory_eq q).trans hq
  obtain ⟨bytes, ways, m, e, hmade, hcopied, hsorted⟩ :=
    sortedOut_of_perform_prepare hlib hwf hleads hstale hprepare
  -- the copy is that of the archive as it was before the build
  have hshipped : ShipsApart around.directory plan units l.links g.tree e.tree := by
    obtain ⟨f, rfl, hf⟩ := exists_archive_before hready hobjects hmade.known hmade.archive
    exact hships f e.tree hf hmade.isFilled
  obtain ⟨hwf₁, hchanged, hcomplete⟩ := hsorted.completed hlib hcopied hsources h.items_perm
    h.succeeded fun s hs => by
      rw [hsorted.pending] at hs
      obtain ⟨src, hsrc, rfl⟩ := List.mem_map.1 hs
      exact (htools.sources src (hcopied.isSourceWay (mem_pendingWays.1 hsrc).1.1)).delivers
  have hlibrary := hmade.ready hlib hcopied hsorted.sortable hchanged hwf₁ hcomplete
  obtain ⟨hwf', hlinked, houtput⟩ := htools.of_final_ran hran hsuccess hwf₁
  exact ⟨bytes, ways, .of_stages habsolute hmade.known hcan hobjects
    (fun q hq => hmade.node?_outside hlib hq) hcopied hshipped hchanged hlibrary hlinked hwf'
    houtput, hsorted.included, hcan⟩

end First

end StagedBuild.Build
