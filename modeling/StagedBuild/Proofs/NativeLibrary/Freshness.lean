import StagedBuild.Proofs.NativeLibrary.Completion
import StagedBuild.Proofs.NativeLibrary.Renewal

/-!
Unpacking the archive. When it succeeds, a copy of the archive as it is now stands in its place and
its manifest is read, whether the copy was made just now or was found to be current.
-/

namespace StagedBuild.NativeLibrary

open Action FileTree Disk Manifest

variable {around : Surroundings} {w w' : World} {t t' : FileTree} {bytes : List UInt8}
  {ways : List Location} {plan : Plan} {s : Site}

namespace Site

/-- Outside the library only directories on the way to it come. -/
def OutsideKept (s : Site) (w w' : World) : Prop :=
  ∀ q, ¬ s.base <+: q → w'.tree.node? q = w.tree.node? q ∨
    OnTheWay [] s.library q ∧ w.tree.node? q = none ∧ w'.tree.node? q = some .directory

theorem Makes.isCopy (hunpacks : around.unpacker = s.unpackers) (hseen : s.contents bytes)
    (hwf : w.tree.WellFormed)
    (hbare : Bare s.library w.tree) (h : s.Makes around bytes w w') :
    (∃ ways, s.IsCopy bytes ways w'.tree) ∧ s.OutsideKept w w' := by
  obtain ⟨hknown, v, hmake, hfill⟩ := h
  have hadded := (adds_makeDirectories around s.library).of_perform hmake
  have hprepared := prepared_of_makeDirectories s.isAbsolute_library hwf hbare hmake
  have hfilled : Filled s.unpackers s.library bytes w'.tree :=
    ⟨around, v, w', hunpacks, hprepared, hfill, rfl⟩
  obtain ⟨-, hchanged⟩ := (local_fill s.isAbsolute_library rfl (fun _ hv => hv) bytes).alone
    (hprepared.agree hprepared) hfill
  obtain ⟨ways, hcopied⟩ := hfilled.copied s.isAbsolute_library
  refine ⟨⟨ways, hseen, hknown, hcopied, w'.tree, hfilled, .refl _ _ _⟩, fun q hq => ?_⟩
  rw [hchanged q hq]
  rcases hadded q with heq | ⟨hway, hnone, hdir⟩
  · exact .inl heq
  · exact .inr ⟨hway.of_absolute s.isAbsolute_library [], hnone, hdir⟩

theorem of_perform_isFresh (h : perform s.copy.isFresh around w = (.ok true, w')) :
    ∃ bytes f, bytesAt s.archive w.tree around.directory = .ok bytes ∧
      w.tree.node? (s.base ++ [markerName]) = some (.file f) ∧ f.bytes = markingOf bytes := by
  rw [base, ← goalOf_of_absolute s.isAbsolute_library around.directory]
  exact NativeLibrary.of_perform_isFresh h

theorem Standing.perform_renew (h : s.Standing w.tree)
    (hunpacks : around.unpacker = s.unpackers) (hout : s.Outside around.directory)
    (hseen : ∀ bytes, bytesAt s.archive w.tree around.directory = .ok bytes → s.contents bytes) :
    (∃ fault w', perform (s.copy.renew writeManifest) around w = (.error fault, w') ∧
        s.Standing w'.tree) ∨
      ∃ bytes ways w', perform (s.copy.renew writeManifest) around w = (.ok (), w') ∧
        bytesAt s.archive w.tree around.directory = .ok bytes ∧ s.IsCopy bytes ways w'.tree ∧
        s.OutsideKept w w' := by
  have hmarking := s.perform_marking around w
  rw [renew_eq]
  rcases hbytes : bytesAt s.archive w.tree around.directory with fault | bytes
  · rw [hbytes] at hmarking
    exact .inl ⟨fault, w, perform_bind_error hmarking, h⟩
  · rw [hbytes] at hmarking
    rw [perform_bind_ok hmarking]
    rcases h.perform_clear around with
      ⟨fault, w', hclear, hstanding⟩ | ⟨w₁, hclear, hwf, hbare, hchanged⟩
    · exact .inl ⟨fault, w', perform_bind_error hclear, hstanding⟩
    · rw [perform_bind_ok hclear]
      have hbytes₁ := (s.bytesAt_of_changedBelow hout hchanged).trans hbytes
      rcases perform_make hwf hbare hbytes₁ (hseen bytes hbytes) with
        ⟨w', hmakes, hok⟩ | ⟨-, fault, w', hfault, hstanding⟩
      · obtain ⟨⟨ways, hcopy⟩, hkept⟩ := hmakes.isCopy hunpacks (hseen bytes hbytes) hwf hbare
        refine .inr ⟨bytes, ways, w', hok, rfl, hcopy, fun q hq => ?_⟩
        rw [← hchanged q hq]
        exact hkept q hq
      · exact .inl ⟨fault, w', hfault, hstanding⟩

/-- Either a copy of the archive as it is now stands, or there is a place where the next run can
start. -/
theorem Standing.perform_freshen (h : s.Standing w.tree)
    (hunpacks : around.unpacker = s.unpackers) (hout : s.Outside around.directory)
    (hseen : ∀ bytes, bytesAt s.archive w.tree around.directory = .ok bytes → s.contents bytes) :
    (∃ fault w', perform (s.copy.freshen writeManifest) around w = (.error fault, w') ∧
        s.Standing w'.tree) ∨
      ∃ renewed bytes ways w', perform (s.copy.freshen writeManifest) around w = (.ok renewed, w') ∧
        bytesAt s.archive w.tree around.directory = .ok bytes ∧ s.IsCopy bytes ways w'.tree ∧
        s.OutsideKept w w' := by
  have hreadOnly := ArchiveCopy.readOnly_isFresh s.copy around w
  unfold ArchiveCopy.freshen
  rcases hfresh : perform s.copy.isFresh around w with ⟨fault | fresh, v⟩
  · rw [hfresh] at hreadOnly
    obtain rfl : v = w := hreadOnly
    exact .inl ⟨fault, v, perform_bind_error hfresh, h⟩
  · rw [hfresh] at hreadOnly
    obtain rfl : v = w := hreadOnly
    rw [perform_bind_ok hfresh]
    cases fresh with
    | false =>
        rcases h.perform_renew hunpacks hout hseen with
          ⟨fault, w', hfault, hstanding⟩ | ⟨bytes, ways, w', hok, hrest⟩
        · refine .inl ⟨fault, w', ?_, hstanding⟩
          change perform (some <$> s.copy.renew writeManifest) around v = _
          rw [perform_map, hfault]
          rfl
        · refine .inr ⟨some (), bytes, ways, w', ?_, hrest⟩
          change perform (some <$> s.copy.renew writeManifest) around v = _
          rw [perform_map, hok]
          rfl
    | true =>
        obtain ⟨bytes, f, hbytes, hnode, hf⟩ := of_perform_isFresh hfresh
        obtain ⟨other, ways, hcopy⟩ := h.marked fun hunmarked =>
          hunmarked (isFile_iff.2 ⟨f, hnode⟩)
        obtain ⟨f', hnode', hf'⟩ := hcopy.copied.marker
        have hsame : f' = f := by
          change v.tree.node? (s.base ++ [markerName]) = _ at hnode'
          rw [hnode] at hnode'
          cases hnode'
          rfl
        obtain rfl : other = bytes := s.distinct other bytes hcopy.seen (hseen bytes hbytes)
          (sha256_eq_of_markingOf_eq (by rw [← hf', hsame, hf]))
        exact .inr ⟨none, other, ways, v, rfl, hbytes, hcopy, fun q _ => .inl rfl⟩

theorem perform_freshen_of_absent (hwf : w.tree.WellFormed) (hbare : Bare s.library w.tree)
    (hask : isAskable s.library = true) (hfits : PathFits s.library)
    (habsent : w.tree.node? s.base = none)
    (hbytes : bytesAt s.archive w.tree around.directory = .ok bytes) (hseen : s.contents bytes)
    (hmakes : ∃ w', s.Makes around bytes w w') :
    ∃ w', perform (s.copy.freshen writeManifest) around w = (.ok (some ()), w') := by
  have hanswer : answerAt s.library w.tree around.directory = .ok none := by
    refine (answerAt_of_fits hask hfits).resolve_right ?_
    rintro ⟨node, -, hnode⟩
    rw [goalOf_of_absolute s.isAbsolute_library] at hnode
    rw [habsent] at hnode
    cases hnode
  have hthere : perform (isOccupied s.library) around w = (.ok false, w) := by
    rw [perform_isOccupied, hanswer]
    rfl
  have hfresh : perform s.copy.isFresh around w = (.ok false, w) :=
    (perform_bind_ok hthere).trans rfl
  have hmarking : perform s.copy.marking around w = (.ok (markingOf bytes), w) := by
    rw [perform_marking, hbytes]
    rfl
  have hclear : perform (clear s.library) around w = (.ok (), w) :=
    (perform_bind_ok hthere).trans rfl
  obtain ⟨w', -, hmake⟩ := (perform_make hwf hbare hbytes hseen).resolve_right fun h =>
    h.1 hmakes
  have hrenew : perform (s.copy.renew writeManifest) around w = (.ok (), w') := by
    rw [renew_eq, perform_bind_ok hmarking, perform_bind_ok hclear, hmake]
  refine ⟨w', ?_⟩
  unfold ArchiveCopy.freshen
  rw [perform_bind_ok hfresh]
  change perform (some <$> s.copy.renew writeManifest) around w = _
  rw [perform_map, hrenew]
  rfl

/-- A build is one of the builds of a site. -/
def Hosts (s : Site) (plan : Plan) : Prop :=
  plan.workdir = s.workdir ∧ plan.archive = s.archive

theorem Hosts.libraryDirectory (h : s.Hosts plan) : plan.libraryDirectory = s.library := by
  rw [Plan.libraryDirectory, library, h.1]

theorem Hosts.copyOf (h : s.Hosts plan) : copyOf plan = s.copy := by
  rw [NativeLibrary.copyOf, copy, h.libraryDirectory, h.2]

theorem IsCopy.perform_load (h : s.IsCopy bytes ways w.tree) :
    perform (Manifest.load s.library) around w = (.ok (manifestOf s.library ways), w) := by
  have hways : ∀ way ∈ ways, way ≠ [] ∧ ∀ name ∈ way, isStep name = true := fun way hway =>
    ⟨(h.copied.isSourceWay hway).1, h.copied.isStep hway⟩
  refine Manifest.perform_load hways h.copied.nodup
    (h.copied.leads.of_absolute s.isAbsolute_library _) h.copied.fits.1 ?_
  rw [goalOf_of_absolute s.isAbsolute_library]
  exact h.copied.manifest

theorem perform_unpack_of_freshen {renewed : Option Unit} (hplan : s.Hosts plan)
    (h : perform (s.copy.freshen writeManifest) around w = (.ok renewed, w'))
    (hcopy : s.IsCopy bytes ways w'.tree) :
    ∃ v : World, v.tree = w'.tree ∧
      perform (unpack plan) around w = (.ok (manifestOf s.library ways), v) := by
  have houtcome : perform (Action.outcome (s.copy.freshen writeManifest)) around w =
      (.ok (.ok renewed), w') := by
    rw [perform_outcome, h]
  unfold unpack
  rw [hplan.copyOf, perform_bind_ok houtcome, hplan.libraryDirectory]
  dsimp only
  cases plan.verbose with
  | false => exact ⟨w', rfl, hcopy.perform_load⟩
  | true =>
      obtain ⟨line, hline⟩ : ∃ line, line = "      Native library " ++
          (if renewed.isSome then "unpacked" else "up to date") ++ ": " ++ s.library.text :=
        ⟨_, rfl⟩
      obtain ⟨v, hsaid, htree⟩ : ∃ v : World, perform (Action.say line) around w' = (.ok (), v) ∧
          v.tree = w'.tree := ⟨_, perform_note _ _ _, rfl⟩
      rw [hline] at hsaid
      exact ⟨v, htree, (perform_bind_ok hsaid).trans (htree ▸ hcopy).perform_load⟩

theorem Standing.perform_unpack (hplan : s.Hosts plan) (h : s.Standing w.tree)
    (hunpacks : around.unpacker = s.unpackers) (hout : s.Outside around.directory)
    (hseen : ∀ bytes, bytesAt s.archive w.tree around.directory = .ok bytes → s.contents bytes) :
    (∃ fault w', perform (unpack plan) around w = (.error fault, w') ∧ s.Standing w'.tree) ∨
      ∃ bytes ways w', perform (unpack plan) around w = (.ok (manifestOf s.library ways), w') ∧
        bytesAt s.archive w.tree around.directory = .ok bytes ∧ s.IsCopy bytes ways w'.tree ∧
        s.OutsideKept w w' := by
  rcases h.perform_freshen hunpacks hout hseen with
    ⟨fault, w', hfault, hstanding⟩ | ⟨renewed, bytes, ways, w', hok, hbytes, hcopy, hkept⟩
  · refine .inl ?_
    have houtcome : perform (Action.outcome (s.copy.freshen writeManifest)) around w =
        (.ok (.error fault), w') := by
      rw [perform_outcome, hfault]
    unfold unpack
    rw [hplan.copyOf, perform_bind_ok houtcome]
    dsimp only
    split
    · rename_i hended
      cases hended
    · exact ⟨_, w', perform_throw _ _ _, hstanding⟩
    · exact ⟨_, w', perform_throw _ _ _, hstanding⟩
  · obtain ⟨v, htree, hunpack⟩ := perform_unpack_of_freshen hplan hok hcopy
    refine .inr ⟨bytes, ways, v, hunpack, hbytes, htree ▸ hcopy, fun q hq => ?_⟩
    rw [htree]
    exact hkept q hq

end Site

end StagedBuild.NativeLibrary
