import StagedBuild.Proofs.Build.Course
import StagedBuild.Proofs.NativeLibrary.Renewed
import StagedBuild.Proofs.Units.Found

/-!
Where the compile commands of a build write. Each command has an object of its own, which no command
reads and which is not the executable, whatever units are found and whatever sources an unpacked
library lists.
-/

namespace StagedBuild.Build

open Action FileTree Disk NativeLibrary Manifest

variable {plan : Plan} {around : Surroundings} {cwd : Location} {w w' : World}
  {ways srcs : List Location} {units : List Path}

/-- What the compile commands write: the object of each unit and of each source. -/
def outputs (units : List Path) (sources : List Source) : List Path :=
  units.map Path.objectPath ++ sources.map Source.objectPath

/-- What the compile commands read: each unit and each source. -/
def inputs (units : List Path) (sources : List Source) : List Path :=
  units ++ sources.map Source.path

/-- The objects of a build go to different places. None of them is read by a compile command, and
none is the executable. -/
structure DistinctOutputs (cwd : Location) (plan : Plan) (units : List Path)
    (sources : List Source) : Prop where
  nodup : ((outputs units sources).map (placeIn cwd plan)).Nodup
  inputs : ∀ out ∈ outputs units sources, ∀ p ∈ inputs units sources,
    placeIn cwd plan out ≠ placeIn cwd plan p
  executable : ∀ out ∈ outputs units sources,
    placeIn cwd plan out ≠ placeIn cwd plan plan.outputPath

/-- A place where the object of a unit or of a source may go. -/
def IsObject (cwd : Location) (plan : Plan) (q : Location) : Prop :=
  Units.ObjectPlace (placeIn cwd plan plan.workdir) q ∨
    ∃ src, IsSourceWay src ∧ q = placeIn cwd plan plan.libraryDirectory ++ objectWay src

theorem placeIn_libraryDirectory (cwd : Location) (plan : Plan) :
    placeIn cwd plan plan.libraryDirectory = placeIn cwd plan plan.workdir ++ ["lib"] :=
  goalOf_libraryDirectory _ plan

section Sources

variable {src : Location} (hsrc : IsSourceWay src)

include hsrc

theorem placeIn_sourceObject : placeIn cwd plan (sourceAt plan.libraryDirectory
      (plan.libraryDirectory.descend src)).objectPath =
    placeIn cwd plan plan.workdir ++ ["lib"] ++ objectWay src := by
  rw [← placeIn_libraryDirectory]
  exact placeIn_objectPath_descend cwd plan plan.libraryDirectory hsrc.2.1 hsrc.1

theorem isObject_source : IsObject cwd plan (placeIn cwd plan (sourceAt plan.libraryDirectory
    (plan.libraryDirectory.descend src)).objectPath) :=
  .inr ⟨src, hsrc, by rw [placeIn_sourceObject hsrc, placeIn_libraryDirectory]⟩

end Sources

section Units

variable (hways : Units.IsUnitListing ways)

include hways

theorem placeIn_unitObject {way : Location} (hway : way ∈ ways) :
    placeIn cwd plan (plan.workdir.descend way).objectPath =
      placeIn cwd plan plan.workdir ++ objectWay way :=
  placeIn_objectPath_descend cwd plan plan.workdir (hways.named way hway)
    (hways.isUnitWay way hway).1

theorem isObject_unit {way : Location} (hway : way ∈ ways) :
    IsObject cwd plan (placeIn cwd plan (plan.workdir.descend way).objectPath) :=
  .inl ⟨way, hways.isUnitWay way hway, placeIn_unitObject hways hway⟩

variable (plan cwd) in
theorem unitObjects_nodup : ((ways.map plan.workdir.descend).map fun u =>
    placeIn cwd plan u.objectPath).Nodup := by
  rw [List.map_map]
  refine hways.nodup.map_on fun a ha b hb heq => ?_
  rw [Function.comp_apply, Function.comp_apply, placeIn_unitObject hways ha,
    placeIn_unitObject hways hb] at heq
  exact objectWay_injective (hways.isUnitWay a ha).1 (hways.isUnitWay b hb).1
    (List.append_cancel_left heq)

end Units

variable (plan cwd) in
theorem sourceObjects_nodup (hsrcs : IsListing srcs) :
    ((sourcesAt plan.libraryDirectory srcs).map fun s =>
      placeIn cwd plan s.objectPath).Nodup := by
  rw [sourcesAt, List.map_map]
  refine hsrcs.nodup.map_on fun a ha b hb heq => ?_
  have hsrc := hsrcs.isSourceWay a ha
  have hsrc' := hsrcs.isSourceWay b hb
  rw [Function.comp_apply, Function.comp_apply, placeIn_sourceObject hsrc,
    placeIn_sourceObject hsrc'] at heq
  exact objectWay_injective hsrc.1 hsrc'.1 (List.append_cancel_left heq)

section Both

variable (hways : Units.IsUnitListing ways) (hsrcs : IsListing srcs)

include hways hsrcs

theorem lastLetter_of_output {out : Path} (h : out ∈ outputs (ways.map plan.workdir.descend)
    (sourcesAt plan.libraryDirectory srcs)) : lastLetter (placeIn cwd plan out) = some 'o' := by
  rw [outputs, sourcesAt, List.map_map, List.map_map, List.mem_append] at h
  rcases h with h | h
  · obtain ⟨way, hway, rfl⟩ := List.mem_map.1 h
    rw [Function.comp_apply, placeIn_unitObject hways hway,
      lastLetter_append _ (by simp [objectWay]), lastLetter_objectWay]
  · obtain ⟨src, hsrc, rfl⟩ := List.mem_map.1 h
    rw [Function.comp_apply, placeIn_sourceObject (hsrcs.isSourceWay src hsrc),
      lastLetter_append _ (by simp [objectWay]), lastLetter_objectWay]

theorem lastLetter_of_input {p : Path} (h : p ∈ inputs (ways.map plan.workdir.descend)
    (sourcesAt plan.libraryDirectory srcs)) : lastLetter (placeIn cwd plan p) ≠ some 'o' := by
  rw [inputs, sourcesAt, List.map_map, List.mem_append] at h
  rcases h with h | h
  · obtain ⟨way, hway, rfl⟩ := List.mem_map.1 h
    have hunit := hways.isUnitWay way hway
    rw [placeIn, goalOf_descend _ _ (hways.named way hway), lastLetter_append _ hunit.1,
      lastLetter_of_isUnitWay hunit]
    decide
  · obtain ⟨src, hsrc, rfl⟩ := List.mem_map.1 h
    have hsource := hsrcs.isSourceWay src hsrc
    change lastLetter (placeIn cwd plan (plan.libraryDirectory.descend src)) ≠ some 'o'
    rw [placeIn, goalOf_descend _ _ hsource.2.1, lastLetter_append _ hsource.1]
    rcases lastLetter_of_isSourceWay hsource with hletter | hletter <;> rw [hletter] <;> decide

/-- Units that are listed and sources that are listed have objects of their own. -/
theorem distinctOutputs_of_listings : DistinctOutputs cwd plan
    (ways.map plan.workdir.descend) (sourcesAt plan.libraryDirectory srcs) where
  nodup := by
    have hunits := unitObjects_nodup plan cwd hways
    have hsources := sourceObjects_nodup plan cwd hsrcs
    rw [outputs, List.map_append, List.map_map, List.map_map (l := sourcesAt _ _)]
    refine List.nodup_append.2 ⟨hunits, hsources, fun q hq q' hq' heq => ?_⟩
    obtain ⟨u, hu, rfl⟩ := List.mem_map.1 hq
    obtain ⟨way, hway, rfl⟩ := List.mem_map.1 hu
    obtain ⟨s, hs, rfl⟩ := List.mem_map.1 hq'
    obtain ⟨src, hsrc, rfl⟩ := List.mem_map.1 hs
    have hsource := hsrcs.isSourceWay src hsrc
    rw [Function.comp_apply, Function.comp_apply, placeIn_unitObject hways hway,
      placeIn_sourceObject hsource, List.append_assoc] at heq
    exact objectWay_unit_ne ["lib"] (hways.isUnitWay way hway) hsource
      (List.append_cancel_left heq)
  inputs out hout p hp heq :=
    lastLetter_of_input hways hsrcs hp (heq ▸ lastLetter_of_output hways hsrcs hout)
  executable out hout heq := by
    have hletter : lastLetter (placeIn cwd plan out) = some 'o' :=
      lastLetter_of_output hways hsrcs hout
    have hplace : plan.outputPath = plan.workdir / "out" := rfl
    rw [heq, placeIn, hplace, goalOf_child _ _ (by decide), lastLetter_concat] at hletter
    exact absurd hletter (by decide)

end Both

/-- The work directory is given from the root, or the current directory is not in the library. -/
def LibraryApart (cwd : Location) (plan : Plan) : Prop :=
  plan.workdir.isAbsolute = true ∨ ¬ goalOf cwd plan.libraryDirectory <+: cwd

theorem LibraryApart.exists_start {t : FileTree} (h : LibraryApart cwd plan)
    (hcwd : t.isDirectory cwd = true) :
    ∃ dir, StartsFrom cwd dir plan.libraryDirectory ∧
      ¬ goalOf cwd plan.libraryDirectory <+: dir ∧ t.isDirectory dir = true := by
  rcases h with habsolute | hout
  · refine ⟨[], .of_absolute (isAbsolute_libraryDirectory habsolute), ?_,
      isDirectory_iff.2 (node?_nil _)⟩
    rw [goalOf_libraryDirectory]
    simp
  · exact ⟨cwd, startsFrom_self cwd _, hout, hcwd⟩

/-- If the copy of the archive counts as current, its manifest is one that unpacking has written. -/
def ManifestWritten (around : Surroundings) (plan : Plan) (w : World) : Prop :=
  perform (copyOf plan).isFresh around w = (.ok true, w) →
    Scanned plan.libraryDirectory (goalOf around.directory plan.libraryDirectory) w.tree

theorem distinctOutputs_of_perform {v v' : World} {m : Manifest} (hw : w.tree.WellFormed)
    (hfind : perform (Units.find plan.workdir) around w = (.ok units, w'))
    (hapart : LibraryApart around.directory plan) (hv : v.tree.WellFormed)
    (hcwd : v.tree.isDirectory around.directory = true) (hmanifest : ManifestWritten around plan v)
    (hunpack : perform (unpack plan) around v = (.ok m, v')) :
    DistinctOutputs around.directory plan units m.sources := by
  obtain ⟨ways, hways, rfl⟩ := Units.of_perform_find hw hfind
  obtain ⟨dir, hstart, hout, hdir⟩ := hapart.exists_start hcwd
  obtain ⟨srcs, hsrcs, rfl⟩ := listing_of_perform_unpack hstart hout hv hdir hmanifest hunpack
  exact distinctOutputs_of_listings hways hsrcs

end StagedBuild.Build
