import StagedBuild.Proofs.NativeLibrary.Trusted

/-!
Where the objects in a library come from. A marker tells which archive the library is a copy of.
Every object of a source in a marked library was shipped in that archive, or it was left there
since. Preparing a library brings no objects but those that the archive ships, however it ends.
-/

namespace StagedBuild.NativeLibrary

open Action FileTree Disk Manifest

variable {around : Surroundings} {w w' : World} {plan : Plan} {lib : Path} {t t' : FileTree}
  {unpacks : Archive.Unpackers → Prop} {contents : List UInt8 → Prop}
  {left more : Location → File → Prop} {bytes : List UInt8}

/-- A new copy of an archive has a file in a place. -/
def ShipsFile (unpackers : Archive.Unpackers) (lib : Path) (bytes : List UInt8) (q : Location)
    (f : File) : Prop :=
  ∃ t, Filled unpackers lib bytes t ∧ t.node? q = some (.file f)

/-- A marked library is a copy of an archive that may occur. Its objects were shipped, by code that
may have unpacked it, or left. -/
def Traced (unpacks : Archive.Unpackers → Prop) (contents : List UInt8 → Prop)
    (left : Location → File → Prop) (lib : Path) (t : FileTree) : Prop :=
  ∀ m, t.node? (goalOf [] lib ++ [markerName]) = some (.file m) →
    ∃ bytes, contents bytes ∧ m.bytes = markingOf bytes ∧
      ∀ src f, IsSourceWay src → t.node? (goalOf [] lib ++ objectWay src) = some (.file f) →
        (∃ unpackers, unpacks unpackers ∧
          ShipsFile unpackers lib bytes (goalOf [] lib ++ objectWay src) f) ∨
          left (goalOf [] lib ++ objectWay src) f

/-- The marker of a library and the objects of its sources. -/
def IsTraced (lib : Path) (q : Location) : Prop :=
  q = goalOf [] lib ++ [markerName] ∨ ∃ src, IsSourceWay src ∧ q = goalOf [] lib ++ objectWay src

/-- From one disk to another no marker comes, and no object of a source. -/
def NoneComes (lib : Path) (t t' : FileTree) : Prop :=
  ∀ q, IsTraced lib q → ∀ f, t'.node? q = some (.file f) → t.node? q = some (.file f)

namespace NoneComes

theorem of_spares {touched : Location → Prop} (h : Spares touched t t')
    (hnot : ∀ q, IsTraced lib q → ¬ touched q) : NoneComes lib t t' :=
  fun q hq _ hf => h.node?_of_file (hnot q hq) hf

theorem of_gone {gone : Location} (h : Gone gone t t') : NoneComes lib t t' := by
  intro q _ f hf
  rcases h q with heq | ⟨-, hnone⟩
  · rw [← heq, hf]
  · rw [hnone] at hf
    cases hf

theorem trans {t'' : FileTree} (h : NoneComes lib t t') (h' : NoneComes lib t' t'') :
    NoneComes lib t t'' :=
  fun q hq f hf => h q hq f (h' q hq f hf)

end NoneComes

theorem IsTraced.lastLetter {q : Location} (h : IsTraced lib q) :
    lastLetter q = some 'h' ∨ lastLetter q = some 'o' := by
  rcases h with rfl | ⟨src, -, rfl⟩
  · left
    rw [lastLetter_concat]
    decide
  · right
    rw [lastLetter_append _ (by simp [objectWay]), lastLetter_objectWay]

namespace Traced

theorem of_noneComes (h : Traced unpacks contents left lib t) (hnone : NoneComes lib t t') :
    Traced unpacks contents left lib t' := by
  intro m hm
  obtain ⟨bytes, hbytes, hmarking, hobjects⟩ := h m (hnone _ (.inl rfl) m hm)
  exact ⟨bytes, hbytes, hmarking, fun src f hsrc hf =>
    hobjects src f hsrc (hnone _ (.inr ⟨src, hsrc, rfl⟩) f hf)⟩

theorem of_unmarked (h : Unmarked lib t) : Traced unpacks contents left lib t :=
  fun m hm => absurd (isFile_iff.2 ⟨m, hm⟩) h

theorem mono (h : Traced unpacks contents left lib t) (hmore : ∀ q f, left q f → more q f) :
    Traced unpacks contents more lib t := by
  intro m hm
  obtain ⟨bytes, hbytes, hmarking, hobjects⟩ := h m hm
  exact ⟨bytes, hbytes, hmarking, fun src f hsrc hf =>
    (hobjects src f hsrc hf).imp_right (hmore _ f)⟩

theorem of_filled {unpackers : Archive.Unpackers} (hlib : lib.isAbsolute = true)
    (hunpacks : unpacks unpackers) (hbytes : contents bytes) (h : Filled unpackers lib bytes t) :
      Traced unpacks contents left lib t := by
  intro m hm
  obtain ⟨ways, hcopied⟩ := h.copied hlib
  obtain ⟨f, hf, hmarking⟩ := hcopied.marker
  rw [hm] at hf
  cases hf
  exact ⟨bytes, hbytes, hmarking, fun src f _ hf => .inl ⟨unpackers, hunpacks, t, h, hf⟩⟩

theorem of_written (h : Traced unpacks contents left lib t)
    (hmarker : ∀ m, t'.node? (goalOf [] lib ++ [markerName]) = some (.file m) →
      t.node? (goalOf [] lib ++ [markerName]) = some (.file m))
    (hobjects : ∀ q f, IsTraced lib q → t'.node? q = some (.file f) →
      t.node? q = some (.file f) ∨ more q f) :
    Traced unpacks contents (fun q f => left q f ∨ more q f) lib t' := by
  intro m hm
  obtain ⟨bytes, hbytes, hmarking, hknown⟩ := h m (hmarker m hm)
  refine ⟨bytes, hbytes, hmarking, fun src f hsrc hf => ?_⟩
  rcases hobjects _ f (.inr ⟨src, hsrc, rfl⟩) hf with hbefore | hmore
  · exact (hknown src f hsrc hbefore).imp_right .inl
  · exact .inr (.inr hmore)

end Traced

/-- From one world to another what is in a library stays traced. -/
def StaysTraced (unpacks : Archive.Unpackers → Prop) (contents : List UInt8 → Prop)
    (left : Location → File → Prop) (lib : Path) (w w' : World) : Prop :=
  Traced unpacks contents left lib w.tree → Traced unpacks contents left lib w'.tree

namespace StaysTraced

instance : Passage (StaysTraced unpacks contents left lib) where
  refl _ := id
  trans h h' := h' ∘ h

theorem of_sparing {α : Type} {action : Action α} {touched : Location → Prop}
    (h : Keeps around (Sparing touched) action) (hnot : ∀ q, IsTraced lib q → ¬ touched q) :
    Keeps around (StaysTraced unpacks contents left lib) action :=
  h.mono fun _ _ hspares htraced => htraced.of_noneComes (.of_spares hspares hnot)

theorem unlink (p : Path) :
    Keeps around (StaysTraced unpacks contents left lib) (Disk.unlink p) := by
  refine keeps_unlink_at fun w loc _ _ hfile htraced => htraced.of_noneComes fun q _ f hf => ?_
  rw [node?_remove (ne_nil_of_isFile hfile)] at hf
  split at hf
  · cases hf
  · exact hf

theorem load (plan : Plan) (hlib : plan.libraryDirectory.isAbsolute = true) :
    Keeps around (StaysTraced unpacks contents left plan.libraryDirectory)
      (Manifest.load plan.libraryDirectory) := by
  have hplace : goalOf around.directory (plan.libraryDirectory / fileName) =
      fileAt (goalOf [] plan.libraryDirectory) := by
    rw [goalOf_child _ _ isEntryName_fileName, goalOf_of_absolute hlib]
    rfl
  have hsparing : Keeps around (Sparing (· = fileAt (goalOf [] plan.libraryDirectory)))
      (Manifest.load plan.libraryDirectory) :=
    keeps_load_within fun bytes => sparing_writeBytes hplace bytes
  refine of_sparing hsparing ?_
  rintro q htraced rfl
  have hletter := htraced.lastLetter
  rw [fileAt, lastLetter_concat] at hletter
  exact absurd hletter (by decide)

end StaysTraced

section Prepare

variable (hlib : plan.libraryDirectory.isAbsolute = true)

include hlib

theorem unmarked_of_makeCopy_error {print : List UInt8} {fault : Fault}
    (hships : ShipsNoMarker bytes)
    (hbytes : ∀ v other, perform (makeDirectories plan.libraryDirectory) around w = (.ok (), v) →
      bytesAt plan.archive v.tree around.directory = .ok other → other = bytes)
    (hw : Unmarked plan.libraryDirectory w.tree)
    (h : perform (makeCopy (copyOf plan) print) around w = (.error fault, w')) :
    Unmarked plan.libraryDirectory w'.tree := by
  have hmake : ∀ p, Keeps around (StaysUnmarked plan.libraryDirectory) (makeDirectories p) :=
    fun p v hv => hv.of_spares (sparing_makeDirectories (fun _ => False) p v) id
  -- everything before the marker is written
  obtain ⟨ready, hready⟩ : ∃ ready : Action Unit, ready = do
      Archive.extract plan.archive plan.libraryDirectory
      let finished ← writeManifest plan.libraryDirectory
      makeDirectories (copyOf plan).marker.parent
      return finished := ⟨_, rfl⟩
  have hstays : StaysUnmarked plan.libraryDirectory w (perform ready around w).2 := by
    rw [hready]
    refine Keeps.bind_at (fun hw => unmarked_of_extract hlib hships hbytes hw) fun _ v _ => ?_
    exact ((staysUnmarked_writeManifest hlib).bind fun _ => (hmake _).bind fun _ => Keeps.pure _) v
  have hsplit : makeCopy (copyOf plan) print =
      ready >>= fun finished => writeBytes (copyOf plan).marker print >>=
        fun _ => pure finished := by
    rw [hready]
    simp only [makeCopy, bind_assoc, pure_bind]
    rfl
  rw [hsplit] at h
  have hunmarked := hstays hw
  rcases hperform : perform ready around w with ⟨_ | _, v⟩
  · rw [hperform] at hunmarked
    rw [perform_bind_error hperform] at h
    cases h
    exact hunmarked
  · rw [hperform] at hunmarked
    rw [perform_bind_ok hperform] at h
    rcases hwritten : perform (writeBytes (copyOf plan).marker print) around v with ⟨_ | _, v'⟩
    · rw [perform_bind_error hwritten] at h
      cases h
      rwa [← perform_writeBytes_error hwritten] at hunmarked
    · rw [perform_bind_ok hwritten] at h
      cases h

variable (hw : w.tree.WellFormed)
  (hleads : LeadsToDirectory plan.workdir w.tree around.directory)
  (hunpacks : unpacks around.unpacker)
  (hcontents : ∀ bytes, bytesAt plan.archive w.tree around.directory = .ok bytes → contents bytes)
  (hmarker : ∀ bytes, contents bytes → ShipsNoMarker bytes)
  (htraced : Traced unpacks contents left plan.libraryDirectory w.tree)

include hw hleads hunpacks hcontents hmarker htraced

theorem traced_of_renew :
    Traced unpacks contents left plan.libraryDirectory
      (perform ((copyOf plan).renew writeManifest) around w).2.tree := by
  rcases hrenew : perform ((copyOf plan).renew writeManifest) around w with ⟨fault | _, w'⟩
  · rw [renew_eq_clear] at hrenew
    have hreadOnly := ArchiveCopy.readOnly_marking (copyOf plan) around w
    rcases hmarking : perform (copyOf plan).marking around w with ⟨_ | print, v⟩
    · rw [hmarking] at hreadOnly
      obtain rfl : v = w := hreadOnly
      rw [perform_bind_error hmarking] at hrenew
      cases hrenew
      exact htraced
    · rw [hmarking] at hreadOnly
      obtain rfl : v = w := hreadOnly
      obtain ⟨bytes, hbytes, -⟩ := perform_marking_ok hmarking
      rw [perform_bind_ok hmarking] at hrenew
      have hgone := gone_of_clear plan.libraryDirectory around v
      rcases hclear : perform (Site.clear (copyOf plan).directory) around v with ⟨_ | _, v₁⟩
      · rw [show perform (Site.clear plan.libraryDirectory) around v = _ from hclear] at hgone
        rw [perform_bind_error hclear] at hrenew
        cases hrenew
        exact htraced.of_noneComes (.of_gone hgone)
      · rw [perform_bind_ok hclear] at hrenew
        have habsent := absent_of_perform_clear hw hleads hclear
        rw [goalOf_of_absolute hlib] at habsent
        exact .of_unmarked (unmarked_of_makeCopy_error hlib (hmarker bytes (hcontents bytes hbytes))
          (fun v₂ other hmake hother => bytesAt_poured hclear hmake hbytes hother)
          (bare_of_absent habsent).unmarked hrenew)
  · obtain ⟨bytes, hbytes, hfilled⟩ := filled_of_perform_renew hlib hw hleads hrenew
    exact .of_filled hlib hunpacks (hcontents bytes hbytes) hfilled

/-- However preparing a library ends, it is traced. -/
theorem traced_of_prepare (links : List String) :
    Traced unpacks contents left plan.libraryDirectory
      (perform (prepare plan links) around w).2.tree := by
  have hunpack : StaysTraced unpacks contents left plan.libraryDirectory w
      (perform (unpack plan) around w).2 :=
    of_perform_unpack (fun _ => traced_of_renew hlib hw hleads hunpacks hcontents hmarker htraced)
      (.load plan hlib) fun line => Keeps.note fun _ => id
  have hprepare : StaysTraced unpacks contents left plan.libraryDirectory w
      (perform (prepare plan links) around w).2 := by
    refine Keeps.bind_at hunpack fun m v _ => Keeps.bind (Keeps.of_readOnly
      (ReadOnly.ofExcept _ _)) (fun _ => ?_) v
    refine (keeps_removeObjects_within fun _ _ => .unlink _).bind fun _ => ?_
    exact (Keeps.of_readOnly (readOnly_withoutObject _)).bind fun _ => Keeps.pure _
  exact hprepare htraced

omit hunpacks hcontents hmarker htraced in
theorem marker_of_perform_prepare {links : List String} {p : Preparation}
    (htrusted : Trusted plan.libraryDirectory w.tree)
    (h : perform (prepare plan links) around w = (.ok p, w')) :
    ∃ bytes f, bytesAt plan.archive w.tree around.directory = .ok bytes ∧
      w'.tree.node? (goalOf [] plan.libraryDirectory ++ [markerName]) = some (.file f) ∧
        f.bytes = markingOf bytes := by
  have hout : ¬ goalOf around.directory plan.libraryDirectory <+: [] := by
    rw [Build.goalOf_libraryDirectory]
    simp
  have hnot : ¬ Reworked (goalOf [] plan.libraryDirectory)
      (goalOf [] plan.libraryDirectory ++ [markerName]) := by
    rintro (hfile | ⟨src, -, hobject⟩)
    · exact absurd (List.append_cancel_left hfile) (by decide)
    · have hletter := congrArg lastLetter (List.append_cancel_left hobject)
      rw [lastLetter_objectWay] at hletter
      exact absurd hletter (by decide)
  obtain ⟨v, hunpacked, hsame⟩ := node?_of_perform_prepare (.of_absolute hlib) hout hw
    (isDirectory_iff.2 (node?_nil _)) (htrusted.scanned hlib) h
  rw [goalOf_of_absolute hlib] at hsame
  rw [hsame _ hnot]
  rcases hunpacked with ⟨rfl, hfresh⟩ | ⟨-, hrenew⟩
  · obtain ⟨bytes, f, hbytes, hnode, hf⟩ := of_perform_isFresh hfresh
    rw [goalOf_of_absolute hlib] at hnode
    exact ⟨bytes, f, hbytes, hnode, hf⟩
  · obtain ⟨bytes, hbytes, hfilled⟩ := filled_of_perform_renew hlib hw hleads hrenew
    obtain ⟨ways, hcopied⟩ := hfilled.copied hlib
    obtain ⟨f, hnode, hf⟩ := hcopied.marker
    exact ⟨bytes, f, hbytes, hnode, hf⟩

end Prepare

end StagedBuild.NativeLibrary
