import StagedBuild.Proofs.Build.Places
import StagedBuild.Proofs.NativeLibrary.Renewal
import StagedBuild.Proofs.NativeLibrary.Scanned

/-!
What seeing to the copy of an archive does to the disk, however it ends: it stays below the library,
the disk stays well formed, and the manifest that is given in the end lists sources.
-/

namespace StagedBuild.NativeLibrary

open Action FileTree Disk Manifest

variable {around : Surroundings} {w w' : World} {plan : Plan} {touched : Location → Prop}

theorem copyOf_directory (plan : Plan) : (copyOf plan).directory = plan.libraryDirectory := rfl

theorem copyOf_marker (plan : Plan) :
    (copyOf plan).marker = plan.libraryDirectory / markerName := rfl

theorem perform_renew_ok
    (h : perform ((copyOf plan).renew writeManifest) around w = (.ok (), w')) :
    ∃ print v₁ v₂ v₃ v₄, perform (copyOf plan).marking around w = (.ok print, w) ∧
      perform (Site.clear plan.libraryDirectory) around w = (.ok (), v₁) ∧
      perform (Archive.extract plan.archive plan.libraryDirectory) around v₁ = (.ok (), v₂) ∧
      perform (writeManifest plan.libraryDirectory) around v₂ = (.ok (), v₃) ∧
      perform (makeDirectories (plan.libraryDirectory / markerName).parent) around v₃ =
        (.ok (), v₄) ∧
      perform (writeBytes (plan.libraryDirectory / markerName) print) around v₄ = (.ok (), w') := by
  rw [renew_eq_clear] at h
  obtain ⟨print, v, hmarking, hclearing⟩ := perform_bind_eq_ok.1 h
  have hreadOnly := ArchiveCopy.readOnly_marking (copyOf plan) around w
  rw [hmarking] at hreadOnly
  obtain rfl : v = w := hreadOnly
  obtain ⟨_, v₁, hclear, hmaking⟩ := perform_bind_eq_ok.1 hclearing
  obtain ⟨_, v₂, hextract, hfinishing⟩ := perform_bind_eq_ok.1 hmaking
  obtain ⟨_, v₃, hmanifest, hfinishing⟩ := perform_bind_eq_ok.1 hfinishing
  obtain ⟨_, v₄, hparent, hfinishing⟩ := perform_bind_eq_ok.1 hfinishing
  obtain ⟨_, v₅, hmarker, hfinishing⟩ := perform_bind_eq_ok.1 hfinishing
  rw [perform_pure] at hfinishing
  obtain rfl := (Prod.mk.inj hfinishing).2
  exact ⟨print, v₁, v₂, v₃, v₄, hmarking, hclear, hextract, hmanifest, hparent, hmarker⟩

section Sparing

variable (htouched : ∀ way, touched (goalOf around.directory plan.libraryDirectory ++ way))

include htouched

theorem touched_child {name : String} (hname : isEntryName name = true) :
    touched (goalOf around.directory (plan.libraryDirectory / name)) := by
  rw [goalOf_child _ _ hname]
  exact htouched [name]

theorem sparing_extract (archive : Path) :
    Keeps around (Sparing touched) (Archive.extract archive plan.libraryDirectory) := by
  intro w
  exact Archive.of_perform_extract (sparing_makeDirectories touched _) fun v bytes _ _ _ _ _ =>
    Archive.sparing_extractMembers bytes _ (fun m _ => htouched m.way) v

theorem sparing_writeManifestFile (bytes : List UInt8) :
    Keeps around (Sparing touched)
      (Disk.writeBytes (plan.libraryDirectory / fileName) bytes) :=
  sparing_writeBytes (touched_child htouched isEntryName_fileName) bytes

theorem sparing_renew :
    Keeps around (Sparing touched) ((copyOf plan).renew writeManifest) := by
  refine ArchiveCopy.keeps_renew_within (copyOf plan) ?_ ?_ ?_ ?_ ?_
  · refine sparing_removeTree ?_
    rintro q ⟨way, rfl⟩
    exact htouched way
  · exact sparing_extract htouched _
  · exact keeps_writeManifest_within (sparing_writeManifestFile htouched)
  · exact sparing_makeDirectories touched _
  · rw [copyOf_marker]
    exact sparing_writeBytes (touched_child htouched isEntryName_markerName)

theorem sparing_unpack : Keeps around (Sparing touched) (unpack plan) := by
  have hload : Keeps around (Sparing touched) (load plan.libraryDirectory) :=
    keeps_load_within (sparing_writeManifestFile htouched)
  intro w
  exact of_perform_unpack (sparing_renew htouched w) hload fun _ => sparing_note touched _

end Sparing

section Clear

theorem gone_of_clear (lib : Path) (around : Surroundings) (w : World) :
    Gone (goalOf around.directory lib) w.tree (perform (Site.clear lib) around w).2.tree := by
  unfold Site.clear
  rw [perform_bind, perform_isOccupied]
  rcases answerAt lib w.tree around.directory with fault | _ | node
  · exact fun q => .inl rfl
  · exact fun q => .inl rfl
  · exact gone_of_removeTree lib around w

theorem sturdy_clear (dir : Location) (lib : Path) {P : FileTree → Prop}
    (hP : ∀ t t', Gone (goalOf around.directory lib) t t' → P t → P t') :
    Keeps around (Sturdy (goalOf around.directory lib) dir P) (Site.clear lib) := by
  unfold Site.clear
  refine (Keeps.of_readOnly (readOnly_isOccupied lib)).bind fun there => ?_
  exact Keeps.ite (fun _ => sturdy_removeTree dir lib hP) fun _ => Keeps.pure _

end Clear

section Sturdy

variable {dir : Location} {P : FileTree → Prop}
  (hstart : StartsFrom around.directory dir plan.libraryDirectory)

include hstart

theorem startsFrom_child {name : String} (hname : isEntryName name = true) :
    StartsFrom around.directory dir (plan.libraryDirectory / name) := by
  refine hstart.congr ?_
  rw [Path.div_eq_descend]
  refine isAbsolute_descend _ fun s hs => ?_
  rw [List.mem_singleton.1 hs]
  exact isStep_of_isEntryName hname

theorem startsFrom_targetOf (m : Archive.Member) :
    StartsFrom around.directory dir (Archive.targetOf plan.libraryDirectory m) := by
  refine hstart.congr ?_
  rw [Archive.targetOf, isAbsolute_collapsed, isAbsolute_descend _ Archive.isStep_of_mem_way]

theorem sturdy_extractMembers {gone : Location} (touched : Location → Prop) (bytes : List UInt8)
    (all : List Archive.Member)
    (hall : ∀ m ∈ all, touched (goalOf around.directory
      (Archive.targetOf plan.libraryDirectory m)))
    (hP : ∀ t t', Spares touched t t' → P t → P t') :
    Keeps around (Sturdy gone dir P)
      (Archive.extractMembers bytes plan.libraryDirectory all) := by
  have htarget := fun m => startsFrom_targetOf hstart m
  exact Archive.keeps_extractMembers_within (P := StartsFrom around.directory dir) bytes _ all
    (fun m _ => htarget m) (fun q hq => hq.parent)
    (fun q hq => Sturdy.of_keeps (sound_makeDirectory hq) (sparing_makeDirectory touched q) hP)
    (fun m hm => Sturdy.of_keeps (sound_write (htarget m) []) (sparing_write (hall m hm) []) hP)
    fun m hm more => Sturdy.of_keeps (sound_appendBytes (htarget m) more)
      (sparing_appendBytes (hall m hm) more) hP

theorem sound_extract (archive : Path) :
    Keeps around (Sound dir) (Archive.extract archive plan.libraryDirectory) := by
  have htarget := fun m => startsFrom_targetOf hstart m
  intro w
  exact Archive.of_perform_extract (sound_makeDirectories hstart) fun v bytes all _ _ _ _ =>
    Archive.keeps_extractMembers_within (P := StartsFrom around.directory dir) bytes _ all
      (fun m _ => htarget m) (fun q hq => hq.parent) (fun q hq => sound_makeDirectory hq)
      (fun m _ => sound_write (htarget m) []) (fun m _ => sound_appendBytes (htarget m)) v

theorem sound_writeManifestFile (bytes : List UInt8) :
    Keeps around (Sound dir) (writeBytes (plan.libraryDirectory / fileName) bytes) :=
  sound_writeBytes (startsFrom_child hstart isEntryName_fileName) bytes

theorem sturdy_renew : Keeps around
    (Sturdy (goalOf around.directory plan.libraryDirectory) dir fun _ => True)
    ((copyOf plan).renew writeManifest) := by
  have hsturdy : ∀ {action : Action Unit}, Keeps around (Sound dir) action → Keeps around
      (Sturdy (goalOf around.directory plan.libraryDirectory) dir fun _ => True) action :=
    fun hsound => hsound.mono fun _ _ h => .of_sound h fun _ => trivial
  have hmarkerStart : StartsFrom around.directory dir (copyOf plan).marker := by
    rw [copyOf_marker]
    exact startsFrom_child hstart isEntryName_markerName
  refine ArchiveCopy.keeps_renew_within (copyOf plan) ?_ ?_ ?_ ?_ fun print => ?_
  · rw [copyOf_directory]
    exact sturdy_removeTree dir _ fun _ _ _ h => h
  · exact hsturdy (sound_extract hstart _)
  · exact hsturdy (keeps_writeManifest_within (sound_writeManifestFile hstart))
  · exact hsturdy (sound_makeDirectories hmarkerStart.parent)
  · exact hsturdy (sound_writeBytes hmarkerStart print)

theorem sturdy_unpack : Keeps around
    (Sturdy (goalOf around.directory plan.libraryDirectory) dir fun _ => True) (unpack plan) := by
  have hload : Keeps around (Sound dir) (load plan.libraryDirectory) :=
    keeps_load_within (sound_writeManifestFile hstart)
  intro w
  refine of_perform_unpack (sturdy_renew hstart w)
    (hload.mono fun _ _ h => .of_sound h fun _ => trivial) fun line => ?_
  exact Keeps.note fun _ _ hw _ _ => ⟨hw, fun _ _ h => h, trivial⟩

theorem sturdy_prepare (links : List String) : Keeps around
    (Sturdy (goalOf around.directory plan.libraryDirectory) dir fun _ => True)
    (prepare plan links) := by
  refine (sturdy_unpack hstart).bind fun manifest => ?_
  refine (Keeps.of_readOnly (ReadOnly.ofExcept _ _)).bind fun selected => ?_
  refine Keeps.bind (keeps_removeObjects_within fun s _ => ?_) fun removed => ?_
  · exact (sound_unlink s.objectPath).mono fun _ _ h => .of_sound h fun _ => trivial
  · exact (Keeps.of_readOnly (readOnly_withoutObject _)).bind fun _ => Keeps.pure _

end Sturdy

section Scanned

variable {dir : Location} (hstart : StartsFrom around.directory dir plan.libraryDirectory)

theorem fileAt_ne_marker (around : Surroundings) (plan : Plan) :
    fileAt (goalOf around.directory plan.libraryDirectory) ≠
      goalOf around.directory (plan.libraryDirectory / markerName) := by
  rw [goalOf_child _ _ isEntryName_markerName, fileAt]
  intro heq
  exact absurd (List.append_cancel_left heq) (by decide)

include hstart

theorem scanned_of_perform_renew
    (hout : ¬ goalOf around.directory plan.libraryDirectory <+: dir)
    (hw : w.tree.WellFormed) (hdir : w.tree.isDirectory dir = true)
    (h : perform ((copyOf plan).renew writeManifest) around w = (.ok (), w')) :
    Scanned plan.libraryDirectory (goalOf around.directory plan.libraryDirectory) w'.tree := by
  obtain ⟨print, v₁, v₂, v₃, v₄, -, hclear, hextract, hmanifest, hparent, hmarker⟩ :=
    perform_renew_ok h
  have hcleared := (sturdy_clear dir plan.libraryDirectory (P := fun _ => True)
    fun _ _ _ h => h).of_perform hclear hout hw hdir trivial
  have hwf₂ := ((sound_extract hstart _).of_perform hextract hcleared.1
    (hcleared.2.1 dir hout hdir)).1
  -- the manifest is written after a scan, and nothing that follows is written in its place
  have hscanned : Scanned plan.libraryDirectory
      (goalOf around.directory plan.libraryDirectory) v₃.tree := by
    rcases scanned_of_writeManifest plan.libraryDirectory hwf₂ around with
      ⟨fault, hfault⟩ | ⟨v, hok, hscanned⟩
    · rw [hmanifest] at hfault
      cases hfault
    · rw [hmanifest] at hok
      cases hok
      exact hscanned
  have hspares := (sparing_makeDirectories (fun _ => False) _).of_perform hparent
  have hmarked := (sparing_writeBytes (p := plan.libraryDirectory / markerName) rfl
    print).of_perform hmarker
  exact (hscanned.of_spares hspares id).of_spares hmarked (fileAt_ne_marker around plan).symm

end Scanned

section Kept

variable {dir : Location}

/-- No member of an archive goes where the manifest goes. -/
def ShipsNoManifest (archive : List UInt8) : Prop :=
  ∀ all, Archive.members archive = .ok all → ∀ m ∈ all, m.way ≠ [fileName]

theorem bytesAt_eq_of_files {p : Path} {cwd : Location} {t t' : FileTree}
    {bytes bytes' : List UInt8} (h : bytesAt p t cwd = .ok bytes)
    (h' : bytesAt p t' cwd = .ok bytes')
    (hfiles : ∀ q f, t'.node? q = some (.file f) → t.node? q = some (.file f)) :
    bytes' = bytes := by
  obtain ⟨-, -, f, hf, rfl⟩ := bytesAt_eq_ok_iff.1 h
  obtain ⟨-, -, f', hf', rfl⟩ := bytesAt_eq_ok_iff.1 h'
  rw [hfiles _ f' hf'] at hf
  cases hf
  rfl

/-- The archive that is poured out is the one whose digest was taken. -/
theorem bytesAt_poured {v₁ v₂ : World} {first bytes : List UInt8}
    (hclear : perform (Site.clear plan.libraryDirectory) around w = (.ok (), v₁))
    (hmake : perform (makeDirectories plan.libraryDirectory) around v₁ = (.ok (), v₂))
    (hfirst : bytesAt plan.archive w.tree around.directory = .ok first)
    (hbytes : bytesAt plan.archive v₂.tree around.directory = .ok bytes) : bytes = first := by
  have hgone := gone_of_clear plan.libraryDirectory around w
  rw [hclear] at hgone
  have hspares := (sparing_makeDirectories (fun _ => False) _).of_perform hmake
  refine bytesAt_eq_of_files hfirst hbytes fun q f hf => ?_
  have hf₁ := hspares.node?_of_file id hf
  rcases hgone q with heq | ⟨-, hnone⟩
  · rw [← heq, hf₁]
  · rw [hnone] at hf₁
    cases hf₁

/-- Only the library goes away, and a manifest that was scanned is followed by one that was. -/
abbrev Tended (around : Surroundings) (plan : Plan) : World → World → Prop :=
  Sturdy (goalOf around.directory plan.libraryDirectory) []
    (Scanned plan.libraryDirectory (goalOf around.directory plan.libraryDirectory))

theorem tended_of_keeps {α : Type} {action : Action α} (hsound : Keeps around (Sound []) action)
    (hsparing : Keeps around (Sparing touched) action)
    (hnot : ¬ touched (fileAt (goalOf around.directory plan.libraryDirectory))) :
    Keeps around (Tended around plan) action :=
  Sturdy.of_keeps hsound hsparing fun _ _ hspares hscanned => hscanned.of_spares hspares hnot

variable (hlib : plan.libraryDirectory.isAbsolute = true)

include hlib

theorem tended_writeManifest :
    Keeps around (Tended around plan) (writeManifest plan.libraryDirectory) := by
  intro w hout hw hdir hscanned
  obtain ⟨hw', hdirs⟩ := keeps_writeManifest_within
    (sound_writeManifestFile (.of_absolute hlib)) w hw hdir
  refine ⟨hw', fun loc _ hloc => hdirs loc hloc, ?_⟩
  rcases scanned_of_writeManifest plan.libraryDirectory hw around with
    ⟨fault, hfault⟩ | ⟨v, hok, hscanned'⟩
  · rw [hfault]
    exact hscanned
  · rw [hok]
    exact hscanned'

theorem tended_makeCopy (print : List UInt8)
    (hships : ∀ v bytes, perform (makeDirectories plan.libraryDirectory) around w = (.ok (), v) →
      plan.archive.suffix ∈ Archive.knownSuffixes →
      bytesAt plan.archive v.tree around.directory = .ok bytes → ShipsNoManifest bytes) :
    Tended around plan w (perform (makeCopy (copyOf plan) print) around w).2 := by
  have hstart : StartsFrom around.directory [] plan.libraryDirectory := .of_absolute hlib
  have hmarkerStart : StartsFrom around.directory [] (plan.libraryDirectory / markerName) :=
    startsFrom_child hstart isEntryName_markerName
  have hdirectory : ∀ p, StartsFrom around.directory [] p →
      Keeps around (Tended around plan) (makeDirectories p) := fun p hp =>
    tended_of_keeps (sound_makeDirectories hp) (sparing_makeDirectories (fun _ => False) p) id
  have hmarker : Keeps around (Tended around plan)
      (writeBytes (plan.libraryDirectory / markerName) print) :=
    tended_of_keeps (sound_writeBytes hmarkerStart print) (sparing_writeBytes rfl print)
      (fileAt_ne_marker around plan).symm
  have hpour : ∀ v bytes all, (∀ m ∈ all, m.way ≠ [fileName]) → Tended around plan v
      (perform (Archive.extractMembers bytes plan.libraryDirectory all) around v).2 := by
    intro v bytes all hall
    have hgoal : ∀ m ∈ all, goalOf around.directory (Archive.targetOf plan.libraryDirectory m) ≠
        fileAt (goalOf around.directory plan.libraryDirectory) := by
      intro m hm heq
      rw [Archive.goalOf_targetOf, fileAt] at heq
      exact hall m hm (List.append_cancel_left heq)
    exact sturdy_extractMembers hstart
      (· ≠ fileAt (goalOf around.directory plan.libraryDirectory)) bytes all hgoal
      (fun t t' hspares hscanned => hscanned.of_spares hspares fun hne => hne rfl) v
  refine Keeps.bind_at ?_ fun _ v _ => ?_
  · exact Archive.of_perform_extract (hdirectory _ hstart)
      fun v bytes all hmake hknown hbytes hall =>
        hpour v bytes all (hships v bytes hmake hknown hbytes all hall)
  · exact (tended_writeManifest hlib).bind (fun _ => (hdirectory _ hmarkerStart.parent).bind
      fun _ => hmarker.bind fun _ => Keeps.pure _) v

end Kept

section Listing

theorem perform_freshen_ok {c : ArchiveCopy} {finish : Path → Action Unit}
    {renewed : Option Unit} (h : perform (c.freshen finish) around w = (.ok renewed, w')) :
    w' = w ∧ perform c.isFresh around w = (.ok true, w) ∨
      perform c.isFresh around w = (.ok false, w) ∧
        perform (c.renew finish) around w = (.ok (), w') := by
  unfold ArchiveCopy.freshen at h
  obtain ⟨fresh, v, hfresh, hrest⟩ := perform_bind_eq_ok.1 h
  have hreadOnly := ArchiveCopy.readOnly_isFresh c around w
  rw [hfresh] at hreadOnly
  obtain rfl : v = w := hreadOnly
  cases fresh with
  | true =>
      cases hrest
      exact .inl ⟨rfl, hfresh⟩
  | false =>
      change perform (some <$> c.renew finish) around v = _ at hrest
      rw [perform_map] at hrest
      rcases hrenew : perform (c.renew finish) around v with ⟨fault | _, u⟩
      · rw [hrenew] at hrest
        cases hrest
      · rw [hrenew] at hrest
        cases hrest
        exact .inr ⟨hfresh, rfl⟩

theorem perform_unpack_ok {m : Manifest} (h : perform (unpack plan) around w = (.ok m, w')) :
    ∃ renewed v v', perform ((copyOf plan).freshen writeManifest) around w = (.ok renewed, v) ∧
      v'.tree = v.tree ∧ perform (load plan.libraryDirectory) around v' = (.ok m, w') := by
  unfold unpack at h
  obtain ⟨ended, v, hended, hrest⟩ := perform_bind_eq_ok.1 h
  rw [perform_outcome] at hended
  obtain ⟨hend, hv⟩ := Prod.mk.inj hended
  obtain rfl := Except.ok.inj hend
  rcases hfreshen : perform ((copyOf plan).freshen writeManifest) around w with ⟨fault | r, u⟩
  · rw [hfreshen] at hrest
    cases fault <;> cases hrest
  · rw [hfreshen] at hv hrest
    obtain rfl : u = v := hv
    refine ⟨r, u, ?_⟩
    cases hverbose : plan.verbose with
    | false =>
        rw [hverbose] at hrest
        exact ⟨u, rfl, rfl, hrest⟩
    | true =>
        rw [hverbose] at hrest
        obtain ⟨_, v', hsay, hload⟩ := perform_bind_eq_ok.1 hrest
        have htree : v'.tree = u.tree := by
          cases hsay
          rfl
        exact ⟨v', rfl, htree, hload⟩

variable {dir : Location} {m : Manifest}

/-- The manifest that unpacking gives lists sources below the library, unless a copy that counts as
current has one of another origin. -/
theorem listing_of_perform_unpack
    (hstart : StartsFrom around.directory dir plan.libraryDirectory)
    (hout : ¬ goalOf around.directory plan.libraryDirectory <+: dir)
    (hw : w.tree.WellFormed) (hdir : w.tree.isDirectory dir = true)
    (hscanned : perform (copyOf plan).isFresh around w = (.ok true, w) →
      Scanned plan.libraryDirectory (goalOf around.directory plan.libraryDirectory) w.tree)
    (h : perform (unpack plan) around w = (.ok m, w')) :
    ∃ ways, IsListing ways ∧ m = ⟨plan.libraryDirectory, sourcesAt plan.libraryDirectory ways⟩ := by
  obtain ⟨renewed, v, v', hfreshen, htree, hload⟩ := perform_unpack_ok h
  have hready : v.tree.WellFormed ∧
      Scanned plan.libraryDirectory (goalOf around.directory plan.libraryDirectory) v.tree := by
    rcases perform_freshen_ok hfreshen with ⟨rfl, hfresh⟩ | ⟨-, hrenew⟩
    · exact ⟨hw, hscanned hfresh⟩
    · exact ⟨((sturdy_renew hstart).of_perform hrenew hout hw hdir trivial).1,
        scanned_of_perform_renew hstart hout hw hdir hrenew⟩
  exact (of_perform_load (htree ▸ hready.1) (htree ▸ hready.2) hload).2 m rfl

end Listing

end StagedBuild.NativeLibrary
