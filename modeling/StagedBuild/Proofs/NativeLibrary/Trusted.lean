import StagedBuild.Proofs.NativeLibrary.Renewed

/-!
Libraries whose manifest can be relied on. What the manifest of a current copy lists is compiled and
taken away without looking, so a library with a marker has to have a manifest that was written after
a scan. Preparing a library keeps it so, however that ends, as long as no archive ships both a
marker and a manifest.
-/

namespace StagedBuild.NativeLibrary

open Action FileTree Disk Manifest

variable {around : Surroundings} {w w' : World} {plan : Plan} {lib : Path} {t t' : FileTree}

/-- A library with a marker has a manifest that was scanned. -/
def Trusted (lib : Path) (t : FileTree) : Prop :=
  ¬ Unmarked lib t → Scanned lib (goalOf [] lib) t

namespace Trusted

theorem scanned (hlib : plan.libraryDirectory.isAbsolute = true)
    (h : Trusted plan.libraryDirectory w.tree)
    (hfresh : perform (copyOf plan).isFresh around w = (.ok true, w)) :
    Scanned plan.libraryDirectory (goalOf around.directory plan.libraryDirectory) w.tree := by
  obtain ⟨bytes, f, -, hmarker, -⟩ := of_perform_isFresh hfresh
  rw [goalOf_of_absolute hlib] at hmarker ⊢
  exact h fun hunmarked => hunmarked (isFile_iff.2 ⟨f, hmarker⟩)

theorem of_spares {touched : Location → Prop} (h : Trusted lib t) (hspares : Spares touched t t')
    (hmarker : ¬ touched (goalOf [] lib ++ [markerName]))
    (hmanifest : ¬ touched (fileAt (goalOf [] lib))) : Trusted lib t' := by
  intro hmarked
  refine (h fun hunmarked => hmarked fun hfile => ?_).of_spares hspares hmanifest
  obtain ⟨f, hf⟩ := isFile_iff.1 hfile
  exact hunmarked (isFile_iff.2 ⟨f, hspares.node?_of_file hmarker hf⟩)

theorem of_scanned (h : Scanned lib (goalOf [] lib) t) : Trusted lib t := fun _ => h

theorem of_unmarked (h : Unmarked lib t) : Trusted lib t := fun hmarked => absurd h hmarked

theorem of_gone {gone : Location} (h : Trusted lib t) (hgone : Gone gone t t') :
    Trusted lib t' := by
  intro hmarked
  refine (h fun hunmarked => hmarked fun hfile => ?_).of_gone hgone
  obtain ⟨f, hf⟩ := isFile_iff.1 hfile
  rcases hgone (goalOf [] lib ++ [markerName]) with heq | ⟨-, hnone⟩
  · exact hunmarked (isFile_iff.2 ⟨f, heq ▸ hf⟩)
  · rw [hnone] at hf
    cases hf

end Trusted

theorem Unmarked.of_spares {touched : Location → Prop} (h : Unmarked lib t)
    (hspares : Spares touched t t') (hmarker : ¬ touched (goalOf [] lib ++ [markerName])) :
    Unmarked lib t' := by
  intro hfile
  obtain ⟨f, hf⟩ := isFile_iff.1 hfile
  exact h (isFile_iff.2 ⟨f, hspares.node?_of_file hmarker hf⟩)

/-- An archive ships no marker, or no manifest. -/
def ShipsNotBoth (archive : List UInt8) : Prop :=
  ShipsNoMarker archive ∨ ShipsNoManifest archive

/-- Only the library goes away, and one that is trusted stays so. -/
abbrev KeepsTrust (around : Surroundings) (plan : Plan) : World → World → Prop :=
  Sturdy (goalOf around.directory plan.libraryDirectory) [] (Trusted plan.libraryDirectory)

section Copy

variable (hlib : plan.libraryDirectory.isAbsolute = true)

include hlib

theorem unmarked_of_extract {bytes : List UInt8} (hships : ShipsNoMarker bytes)
    (hbytes : ∀ v other, perform (makeDirectories plan.libraryDirectory) around w = (.ok (), v) →
      bytesAt plan.archive v.tree around.directory = .ok other → other = bytes)
    (hw : Unmarked plan.libraryDirectory w.tree) :
    Unmarked plan.libraryDirectory
      (perform (Archive.extract plan.archive plan.libraryDirectory) around w).2.tree := by
  have hstays : StaysUnmarked plan.libraryDirectory w
      (perform (Archive.extract plan.archive plan.libraryDirectory) around w).2 := by
    refine Archive.of_perform_extract (fun v hv => ?_) fun v other all hmake _ hother hall => ?_
    · exact hv.of_spares (sparing_makeDirectories (fun _ => False) _ v) id
    · obtain rfl := hbytes v other hmake hother
      exact staysUnmarked_extractMembers hlib (hships all hall) v
  exact hstays hw

/-- A copy of an archive that ships no marker. Its own marker is the last that is written, when the
manifest is one that was scanned. -/
theorem trusted_of_makeCopy_unmarked {bytes : List UInt8} (print : List UInt8)
    (hships : ShipsNoMarker bytes)
    (hbytes : ∀ v other, perform (makeDirectories plan.libraryDirectory) around w = (.ok (), v) →
      bytesAt plan.archive v.tree around.directory = .ok other → other = bytes)
    (hw : w.tree.WellFormed) (hunmarked : Unmarked plan.libraryDirectory w.tree) :
    Trusted plan.libraryDirectory (perform (makeCopy (copyOf plan) print) around w).2.tree := by
  have hextract := unmarked_of_extract hlib hships hbytes hunmarked
  have hstart : StartsFrom around.directory [] plan.libraryDirectory := .of_absolute hlib
  have hsound := sound_extract hstart plan.archive w hw (isDirectory_iff.2 (node?_nil w.tree))
  unfold makeCopy
  rw [perform_bind]
  rcases hextracted : perform (Archive.extract (copyOf plan).archive (copyOf plan).directory)
    around w with ⟨fault | _, v⟩
  · rw [show perform (Archive.extract plan.archive plan.libraryDirectory) around w = _ from
      hextracted] at hextract
    exact .of_unmarked hextract
  · rw [show perform (Archive.extract plan.archive plan.libraryDirectory) around w = _ from
      hextracted] at hextract hsound
    dsimp only
    rw [perform_bind]
    rcases scanned_of_writeManifest plan.libraryDirectory hsound.1 around with
      ⟨fault, hfault⟩ | ⟨v', hok, hscanned⟩
    · rw [show perform (writeManifest (copyOf plan).directory) around v = _ from hfault]
      exact .of_unmarked hextract
    · rw [show perform (writeManifest (copyOf plan).directory) around v = _ from hok]
      -- behind the manifest only the marker is written
      have hmark : Keeps around (Sparing
          (· = goalOf around.directory (plan.libraryDirectory / markerName)))
          (writeBytes (copyOf plan).marker print) := sparing_writeBytes (by rfl) print
      have hrest := (sparing_makeDirectories _ (copyOf plan).marker.parent).bind fun _ =>
        hmark.bind fun _ => Keeps.pure ()
      refine .of_scanned ?_
      rw [← goalOf_of_absolute hlib around.directory]
      exact hscanned.of_spares (hrest v') (fileAt_ne_marker around plan)

theorem trusted_of_makeCopy {bytes : List UInt8} (print : List UInt8) (hships : ShipsNotBoth bytes)
    (hbytes : ∀ v other, perform (makeDirectories plan.libraryDirectory) around w = (.ok (), v) →
      bytesAt plan.archive v.tree around.directory = .ok other → other = bytes)
    (hw : w.tree.WellFormed)
    (habsent : ∀ way, w.tree.node? (goalOf around.directory plan.libraryDirectory ++ way) = none) :
    Trusted plan.libraryDirectory
      (perform (makeCopy (copyOf plan) print) around w).2.tree := by
  have hgoal := goalOf_of_absolute hlib around.directory
  rcases hships with hmarker | hmanifest
  · refine trusted_of_makeCopy_unmarked hlib print hmarker hbytes hw fun hfile => ?_
    obtain ⟨f, hf⟩ := isFile_iff.1 hfile
    rw [← hgoal, habsent] at hf
    cases hf
  · have hout : ¬ goalOf around.directory plan.libraryDirectory <+: [] := by
      rw [Build.goalOf_libraryDirectory]
      simp
    have hscanned : Scanned plan.libraryDirectory
        (goalOf around.directory plan.libraryDirectory) w.tree := by
      intro f hf
      rw [fileAt, habsent] at hf
      cases hf
    refine .of_scanned ?_
    rw [← hgoal]
    refine (tended_makeCopy hlib print (fun v other hmake _ hother => ?_) hout hw
      (isDirectory_iff.2 (node?_nil w.tree)) hscanned).2.2
    rw [hbytes v other hmake hother]
    exact hmanifest

variable (hw : w.tree.WellFormed)
  (hleads : LeadsToDirectory plan.workdir w.tree around.directory)
  (htrusted : Trusted plan.libraryDirectory w.tree)
  (hships : ∀ bytes, bytesAt plan.archive w.tree around.directory = .ok bytes → ShipsNotBoth bytes)

include hw hleads htrusted hships

theorem trusted_of_renew :
    Trusted plan.libraryDirectory
      (perform ((copyOf plan).renew writeManifest) around w).2.tree := by
  rw [renew_eq_clear, perform_bind]
  have hreadOnly := ArchiveCopy.readOnly_marking (copyOf plan) around w
  rcases hmarking : perform (copyOf plan).marking around w with ⟨fault | print, v⟩
  · rw [hmarking] at hreadOnly
    obtain rfl : v = w := hreadOnly
    exact htrusted
  · rw [hmarking] at hreadOnly
    obtain rfl : v = w := hreadOnly
    obtain ⟨bytes, hbytes, -⟩ := perform_marking_ok hmarking
    have hout : ¬ goalOf around.directory plan.libraryDirectory <+: [] := by
      rw [Build.goalOf_libraryDirectory]
      simp
    have hgone := gone_of_clear plan.libraryDirectory around v
    have hsturdy := sturdy_clear [] plan.libraryDirectory (P := fun _ => True)
      (fun _ _ _ h => h) v hout hw (isDirectory_iff.2 (node?_nil _)) trivial
    dsimp only
    rw [perform_bind]
    rcases hclear : perform (Site.clear (copyOf plan).directory) around v with ⟨fault | _, v₁⟩
    · rw [show perform (Site.clear plan.libraryDirectory) around v = _ from hclear] at hgone
      exact htrusted.of_gone hgone
    · rw [show perform (Site.clear plan.libraryDirectory) around v = _ from hclear] at hsturdy
      exact trusted_of_makeCopy hlib print (hships bytes hbytes)
        (fun v₂ other hmake hother => bytesAt_poured hclear hmake hbytes hother) hsturdy.1
        (absent_of_perform_clear hw hleads hclear)

omit hw hleads htrusted hships in
theorem keepsTrust_load : Keeps around (KeepsTrust around plan) (load plan.libraryDirectory) := by
  have hgoal := goalOf_of_absolute hlib around.directory
  intro w hout hw hdir htrusted
  obtain ⟨hw', hdirs⟩ := keeps_load_within
    (sound_writeManifestFile (.of_absolute hlib)) w hw hdir
  refine ⟨hw', fun loc _ hloc => hdirs loc hloc, fun hmarked => ?_⟩
  rw [← hgoal]
  refine (of_perform_load hw ?_ rfl).1
  rw [hgoal]
  refine htrusted fun hunmarked => hmarked ?_
  -- loading writes no marker
  have hspares : Spares (· = fileAt (goalOf around.directory plan.libraryDirectory)) w.tree
      (perform (load plan.libraryDirectory) around w).2.tree :=
    keeps_load_within
      (fun bytes => sparing_writeBytes (goalOf_child _ _ isEntryName_fileName) bytes) w
  refine hunmarked.of_spares hspares ?_
  rw [hgoal]
  exact fun heq => absurd (List.append_cancel_left heq) (by decide)

theorem keepsTrust_unpack :
    KeepsTrust around plan w (perform (unpack plan) around w).2 := by
  refine of_perform_unpack (fun hout hw' hdir _ => ?_) (keepsTrust_load hlib) fun _ =>
    Keeps.note fun _ _ hw _ htrusted => ⟨hw, fun _ _ h => h, htrusted⟩
  obtain ⟨hwf, hdirs, -⟩ := sturdy_renew (.of_absolute hlib) w hout hw' hdir trivial
  exact ⟨hwf, hdirs, trusted_of_renew hlib hw hleads htrusted hships⟩

theorem keepsTrust_prepare (links : List String) :
    KeepsTrust around plan w (perform (prepare plan links) around w).2 := by
  have hgoal := goalOf_of_absolute hlib around.directory
  have hout : ¬ goalOf around.directory plan.libraryDirectory <+: [] := by
    rw [Build.goalOf_libraryDirectory]
    simp
  refine Keeps.bind_at (keepsTrust_unpack hlib hw hleads htrusted hships) fun m v hunpack => ?_
  obtain ⟨ways, hways, rfl⟩ := listing_of_perform_unpack (.of_absolute hlib) hout hw
    (isDirectory_iff.2 (node?_nil _)) (htrusted.scanned hlib) hunpack
  rw [select_ways, perform_bind_ok (perform_ofExcept_id _ _ _)]
  refine Keeps.bind (keeps_removeObjects_within fun s hs => ?_) (fun removed => ?_) v
  · obtain ⟨src, hsrc, rfl⟩ := List.mem_map.1 hs
    have hsource := (hways.filter _).isSourceWay src hsrc
    have hplace : goalOf around.directory
        (sourceAt plan.libraryDirectory (plan.libraryDirectory.descend src)).objectPath =
          goalOf [] plan.libraryDirectory ++ objectWay src := by
      rw [objectPath_sourceAt hsource,
        goalOf_of_absolute (isAbsolute_descend_objectWay hlib hsource),
        goalOf_descend_objectWay hsource, objectAt]
    have hother : ∀ {name : String}, lastLetter [name] ≠ some 'o' →
        ¬ goalOf [] plan.libraryDirectory ++ [name] =
          goalOf [] plan.libraryDirectory ++ objectWay src := by
      intro name hletter heq
      rw [List.append_cancel_left heq, lastLetter_objectWay] at hletter
      exact hletter rfl
    have hsparing : Keeps around (Sparing (· = goalOf [] plan.libraryDirectory ++ objectWay src))
        (unlink (sourceAt plan.libraryDirectory (plan.libraryDirectory.descend src)).objectPath) :=
      sparing_unlink hplace
    exact Sturdy.of_keeps (sound_unlink _) hsparing fun _ _ hspares htrusted =>
      htrusted.of_spares hspares (hother (by decide)) (hother (by decide))
  · exact (Keeps.of_readOnly (readOnly_withoutObject _)).bind fun _ => Keeps.pure _

end Copy

end StagedBuild.NativeLibrary
