import StagedBuild.Proofs.Action.RemoveTree
import StagedBuild.Proofs.Archive.Fresh
import StagedBuild.Proofs.NativeLibrary.Objects

/-!
Seeing to it that the copy of an archive is current. However that ends, a marker tells the truth:
where there is one, the copy was made of an archive with that digest, and only objects have come or
gone since. A copy that is being made has no marker until it is complete, and a run that is broken
off anywhere leaves a place where the next one can start.
-/

namespace StagedBuild.NativeLibrary

section Markers

open Action FileTree Disk Manifest

variable {around : Surroundings} {w w' : World} {lib : Path} {t t' : FileTree}
  {archive : List UInt8} {ways : List Location}

/-- There is no file where the marker goes. -/
def Unmarked (lib : Path) (t : FileTree) : Prop :=
  ¬ t.isFile (goalOf [] lib ++ [markerName]) = true

/-- No member of an archive goes where the marker goes. -/
def ShipsNoMarker (archive : List UInt8) : Prop :=
  ∀ all, Archive.members archive = .ok all → ∀ m ∈ all, m.way ≠ [markerName]

/-- No marker comes. -/
def StaysUnmarked (lib : Path) (w w' : World) : Prop :=
  Unmarked lib w.tree → Unmarked lib w'.tree

section StaysUnmarked

instance : Passage (StaysUnmarked lib) where
  refl _ := id
  trans h h' := h' ∘ h

theorem staysUnmarked_makeDirectory (p : Path) :
    Keeps around (StaysUnmarked lib) (Disk.makeDirectory p) := by
  refine keeps_makeDirectory_at fun w loc _ _ hfree hw hfile => ?_
  have hne : loc ≠ [] := by
    rintro rfl
    exact hfree (isOccupied_iff.2 ⟨_, node?_nil _⟩)
  obtain ⟨f, hf⟩ := isFile_iff.1 hfile
  rw [node?_add hne] at hf
  split at hf
  · cases hf
  · exact hw (isFile_iff.2 ⟨f, hf⟩)

theorem staysUnmarked_write {p : Path}
    (hp : goalOf around.directory p ≠ goalOf [] lib ++ [markerName]) (bytes : List UInt8) :
    Keeps around (StaysUnmarked lib) (change p fun t cwd => t.write cwd p bytes) := by
  refine keeps_write_at fun w loc _ hloc hnot hw hfile => ?_
  obtain rfl := (locate_eq_ok_iff.1 hloc).1
  have hne : goalOf around.directory p ≠ [] := by
    intro hnil
    rw [hnil] at hnot
    exact hnot (isDirectory_iff.2 (node?_nil _))
  obtain ⟨f, hf⟩ := isFile_iff.1 hfile
  rw [node?_writeFile hne, if_neg (Ne.symm hp)] at hf
  exact hw (isFile_iff.2 ⟨f, hf⟩)

theorem staysUnmarked_extractMembers (hlib : lib.isAbsolute = true) {all : List Archive.Member}
    (hall : ∀ m ∈ all, m.way ≠ [markerName]) :
    Keeps around (StaysUnmarked lib) (Archive.extractMembers archive lib all) := by
  have hgoal : ∀ m ∈ all, goalOf around.directory (Archive.targetOf lib m) ≠
      goalOf [] lib ++ [markerName] := by
    intro m hm heq
    rw [Archive.goalOf_targetOf, goalOf_of_absolute hlib] at heq
    exact hall m hm (List.append_cancel_left heq)
  exact Archive.keeps_extractMembers archive lib all staysUnmarked_makeDirectory
    (fun m hm => staysUnmarked_write (hgoal m hm) []) fun m hm bytes =>
      (Keeps.of_readOnly (readOnly_readBytes _)).bind fun _ => staysUnmarked_write (hgoal m hm) _

theorem staysUnmarked_writeManifest (hlib : lib.isAbsolute = true) :
    Keeps around (StaysUnmarked lib) (writeManifest lib) := by
  have hnames : ∀ s ∈ [fileName], isEntryName s = true := by
    simpa using isEntryName_fileName
  have hgoal : goalOf around.directory (lib / fileName) ≠ goalOf [] lib ++ [markerName] := by
    rw [Path.div_eq_descend, goalOf_descend _ _ hnames, goalOf_of_absolute hlib]
    exact fun heq => absurd (List.append_cancel_left heq) (by decide)
  unfold writeManifest Manifest.scan Manifest.write
  simp only [bind_assoc, pure_bind]
  refine (Keeps.of_readOnly (readOnly_entriesBelow lib)).bind fun _ => ?_
  exact ((staysUnmarked_write hgoal []).bind fun _ => staysUnmarked_write hgoal _).bind
    fun _ => Keeps.pure ()

theorem staysUnmarked_pour (hlib : lib.isAbsolute = true) (hships : ShipsNoMarker archive) :
    Keeps around (StaysUnmarked lib) (pour lib archive) := by
  unfold pour
  rcases hall : Archive.members archive with e | all
  · exact Keeps.throw _
  · simp only [Action.ofExcept, pure_bind]
    exact staysUnmarked_extractMembers hlib (hships all hall)

end StaysUnmarked

theorem Bare.unmarked (h : Bare lib t) : Unmarked lib t := fun hfile =>
  not_isFile_of_isDirectory (h _ (isOccupied_of_isFile hfile)).1 hfile

theorem unmarked_of_perform_fill {fault : Fault} (hlib : lib.isAbsolute = true)
    (hships : ShipsNoMarker archive) (hw : Unmarked lib w.tree)
    (h : perform (fill lib archive) around w = (.error fault, w')) : Unmarked lib w'.tree := by
  unfold fill at h
  rcases hpour : perform (pour lib archive) around w with ⟨e | _, w₁⟩
  · have h₁ := (staysUnmarked_pour hlib hships).of_perform hpour hw
    rw [perform_bind_error hpour] at h
    cases h
    exact h₁
  · have h₁ := (staysUnmarked_pour hlib hships).of_perform hpour hw
    rw [perform_bind_ok hpour] at h
    rcases hmanifest : perform (writeManifest lib) around w₁ with ⟨e | _, w₂⟩
    · have h₂ := (staysUnmarked_writeManifest hlib).of_perform hmanifest h₁
      rw [perform_bind_error hmanifest] at h
      cases h
      exact h₂
    · have h₂ := (staysUnmarked_writeManifest hlib).of_perform hmanifest h₁
      rw [perform_bind_ok hmanifest] at h
      rwa [← perform_writeBytes_error h] at h₂

end Markers

section Renewing

open Action FileTree Disk Manifest

variable {around : Surroundings} {w w' : World} {t t' : FileTree} {bytes : List UInt8}
  {ways : List Location}

section Marker

variable {archive lib : Path}

theorem perform_marking (archive lib : Path) (around : Surroundings) (w : World) :
    perform (ArchiveCopy.ofArchive archive lib).marking around w =
      ((bytesAt archive w.tree around.directory).map markingOf, w) := by
  have hchunks : ∀ bytes, ArchiveCopy.readInChunks around.spareMemory
      ArchiveCopy.defaultChunkSize bytes = .ok bytes := fun bytes =>
    (ArchiveCopy.readInChunks_eq_ok_iff (by decide)).2
      ⟨ArchiveCopy.accepts_defaultChunkSize _, rfl⟩
  rw [ArchiveCopy.perform_marking, ArchiveCopy.printAt]
  change ((bytesAt archive w.tree around.directory).bind fun bytes =>
    (ArchiveCopy.readInChunks _ ArchiveCopy.defaultChunkSize bytes).bind _, w) = _
  simp only [hchunks]
  rfl

theorem perform_marking_ok {print : List UInt8}
    (h : perform (ArchiveCopy.ofArchive archive lib).marking around w = (.ok print, w')) :
    ∃ bytes, bytesAt archive w.tree around.directory = .ok bytes ∧ print = markingOf bytes := by
  rw [perform_marking] at h
  obtain ⟨hprint, -⟩ := Prod.mk.inj h
  rcases hbytes : bytesAt archive w.tree around.directory with fault | bytes
  · rw [hbytes] at hprint
    cases hprint
  · rw [hbytes] at hprint
    cases hprint
    exact ⟨bytes, rfl, rfl⟩

theorem parent_marker (lib : Path) : (lib / markerName).parent = lib :=
  Path.parent_div lib (by decide)

theorem of_perform_isFresh
    (h : perform (ArchiveCopy.ofArchive archive lib).isFresh around w = (.ok true, w')) :
    ∃ bytes f, bytesAt archive w.tree around.directory = .ok bytes ∧
      w.tree.node? (goalOf around.directory lib ++ [markerName]) = some (.file f) ∧
        f.bytes = markingOf bytes := by
  unfold ArchiveCopy.isFresh at h
  obtain ⟨there, w₁, hthere, h₁⟩ := perform_bind_eq_ok.1 h
  rw [perform_isOccupied] at hthere
  obtain ⟨-, rfl⟩ := Prod.mk.inj hthere
  cases there with
  | false => cases h₁
  | true =>
      obtain ⟨marked, w₂, hmarked, h₂⟩ := perform_bind_eq_ok.1 h₁
      rw [perform_isOccupied] at hmarked
      obtain ⟨-, rfl⟩ := Prod.mk.inj hmarked
      cases marked with
      | false => cases h₂
      | true =>
          obtain ⟨held, w₃, hread, h₃⟩ := perform_bind_eq_ok.1 h₂
          rw [perform_readBytes] at hread
          obtain ⟨hheld, rfl⟩ := Prod.mk.inj hread
          obtain ⟨print, w₄, hmarking, h₄⟩ := perform_bind_eq_ok.1 h₃
          obtain ⟨bytes, hbytes, rfl⟩ := perform_marking_ok hmarking
          obtain ⟨-, -, f, hnode, hf⟩ := bytesAt_eq_ok_iff.1 hheld
          have hequal : held = markingOf bytes := by
            simpa using Except.ok.inj (Prod.mk.inj h₄).1
          refine ⟨bytes, f, hbytes, ?_, hf.trans hequal⟩
          rw [← goalOf_child around.directory lib isEntryName_markerName]
          exact hnode

end Marker

theorem bytesAt_of_added {p : Path} {cwd : Location} {places : Location → Prop}
    (h : DirectoriesAdded places w w') (hbytes : bytesAt p w.tree cwd = .ok bytes) :
    bytesAt p w'.tree cwd = .ok bytes := by
  obtain ⟨hask, hloc, f, hnode, hf⟩ := bytesAt_eq_ok_iff.1 hbytes
  obtain ⟨-, htext, hpassed, hsteps⟩ := locate_eq_ok_iff.1 hloc
  exact bytesAt_eq_ok_iff.2 ⟨hask, locate_eq_ok_iff.2 ⟨rfl, htext,
    fun v hv => h.isDirectory (hpassed v hv), hsteps⟩, f, h.node?_of_some hnode, hf⟩

/-- A work directory in which libraries are assembled, the archive that they are made from, and
what the archive may hold from time to time: no member goes where the marker goes, and archives
that differ have different digests. What is packed in an archive is unpacked by the same code each
time. -/
structure Site where
  workdir : Path
  archive : Path
  unpackers : Archive.Unpackers
  contents : List UInt8 → Prop
  absolute : workdir.isAbsolute = true
  shipsNoMarker : ∀ bytes, contents bytes → ShipsNoMarker bytes
  distinct : ∀ bytes other, contents bytes → contents other →
    Digest.sha256 bytes = Digest.sha256 other → bytes = other

namespace Site

variable (s : Site)

/-- Where the library is assembled. -/
def library : Path := s.workdir / "lib"

/-- Where the library is. -/
abbrev base : Location := goalOf [] s.library

/-- The copy of the archive. -/
def copy : ArchiveCopy := .ofArchive s.archive s.library

theorem isAbsolute_library : s.library.isAbsolute = true := by
  rw [library, Path.div_eq_descend, isAbsolute_descend _ (by decide), s.absolute]

/-- The archive lies outside the library. -/
def Outside (cwd : Location) : Prop :=
  ∀ v, OnTheWay cwd s.archive v → ¬ s.base <+: v

/-- A copy of an archive from which only objects have gone, or to which they have come. -/
structure IsCopy (bytes : List UInt8) (ways : List Location) (t : FileTree) : Prop where
  seen : s.contents bytes
  known : s.archive.suffix ∈ Archive.knownSuffixes
  copied : Copied s.library bytes ways t
  derived : ∃ t₀, Filled s.unpackers s.library bytes t₀ ∧ Derived s.library ways t₀ t

/-- A disk on which runs have come to an end: the library has a place, and a marker tells the
truth. -/
structure Standing (t : FileTree) : Prop where
  wellFormed : t.WellFormed
  place : Bare s.library t ∨ LeadsToDirectory s.library t []
  marked : ¬ Unmarked s.library t → ∃ bytes ways, s.IsCopy bytes ways t

theorem Standing.of_bare (hwf : t.WellFormed) (h : Bare s.library t) : s.Standing t :=
  ⟨hwf, .inl h, fun hmarked => absurd h.unmarked hmarked⟩

theorem bytesAt_of_changedBelow {cwd : Location} (hout : s.Outside cwd)
    (h : ChangedBelow s.base w w') : bytesAt s.archive w'.tree cwd = bytesAt s.archive w.tree cwd :=
  bytesAt_congr (fun v hv => h v (hout v (.inl hv))) (h _ (hout _ (.inr rfl)))

theorem bytesAt_of_added {cwd : Location} {places : Location → Prop}
    (h : DirectoriesAdded places w w') (hbytes : bytesAt s.archive w.tree cwd = .ok bytes) :
    bytesAt s.archive w'.tree cwd = .ok bytes :=
  NativeLibrary.bytesAt_of_added h hbytes

theorem perform_marking (around : Surroundings) (w : World) :
    perform s.copy.marking around w =
      ((bytesAt s.archive w.tree around.directory).map markingOf, w) :=
  NativeLibrary.perform_marking s.archive s.library around w

section Clear

def clear (lib : Path) : Action Unit := do
  if ← Disk.isOccupied lib then Disk.removeTree lib

variable {s}

theorem Standing.of_emptied (h : s.Standing w.tree) (hemptied : Emptied s.base w w') :
    s.Standing w'.tree := by
  have hbelow : ∀ (q : Location) name, isBelow s.base q = true →
      isBelow s.base (q ++ [name]) = true := by
    intro q name hq
    obtain ⟨way, hway, rfl⟩ := isBelow_iff.1 hq
    rw [List.append_assoc]
    exact isBelow_append.2 (by simp)
  have hwf : w'.tree.WellFormed := h.wellFormed.prune hbelow
    (fun q hq => by rw [hemptied, if_pos hq]) fun q hq => by rw [hemptied, if_neg hq]
  refine .of_bare s hwf fun way hocc => ?_
  by_cases hway : way = []
  · subst hway
    have hsame : w'.tree.node? (s.base ++ []) = w.tree.node? (s.base ++ []) := by
      rw [hemptied, if_neg fun hbelow => isBelow_append.1 hbelow rfl]
    rw [isOccupied_congr hsame] at hocc
    rw [isDirectory_congr hsame]
    refine ⟨?_, .inr (by simp)⟩
    rcases h.place with hbare | hleads
    · exact (hbare [] hocc).1
    · rw [List.append_nil]
      exact hleads.isDirectory
  · obtain ⟨node, hnode⟩ := isOccupied_iff.1 hocc
    rw [hemptied, if_pos (isBelow_append.2 hway)] at hnode
    cases hnode

theorem Standing.perform_clear (h : s.Standing w.tree) (around : Surroundings) :
    (∃ fault w', perform (clear s.library) around w = (.error fault, w') ∧
        s.Standing w'.tree) ∨
      ∃ w', perform (clear s.library) around w = (.ok (), w') ∧ w'.tree.WellFormed ∧
        Bare s.library w'.tree ∧ ChangedBelow s.base w w' := by
  have hbase : goalOf around.directory s.library = s.base :=
    goalOf_of_absolute s.isAbsolute_library _
  unfold clear
  rcases hanswer : answerAt s.library w.tree around.directory with fault | found
  · refine .inl ⟨fault, w, perform_bind_error ?_, h⟩
    rw [perform_isOccupied, hanswer]
    rfl
  · have hocc : perform (isOccupied s.library) around w = (.ok found.isSome, w) := by
      rw [perform_isOccupied, hanswer]
      rfl
    rw [perform_bind_ok hocc]
    cases found with
    | none =>
        refine .inr ⟨w, rfl, h.wellFormed, h.place.resolve_right fun hleads => ?_,
          Passage.refl w⟩
        rw [hleads.of_absolute s.isAbsolute_library around.directory] at hanswer
        cases hanswer
    | some node =>
        rcases perform_removeTree s.library around w with
          ⟨fault, hfault⟩ | ⟨fault, w', hfault, hemptied⟩ | ⟨w', hok, hremoved⟩
        · exact .inl ⟨fault, w, hfault, h⟩
        · exact .inl ⟨fault, w', hfault, h.of_emptied (hbase ▸ hemptied)⟩
        · rw [hbase] at hremoved
          exact .inr ⟨w', hok, hremoved.wellFormed h.wellFormed,
            bare_of_absent hremoved.node?_below,
            fun q hq => hremoved.node?_elsewhere hq⟩

end Clear

end Site

/-- Fills the place of a copy, and marks it. -/
def makeCopy (c : ArchiveCopy) (print : List UInt8) : Action Unit := do
  Archive.extract c.archive c.directory
  let finished ← writeManifest c.directory
  Disk.makeDirectories c.marker.parent
  Disk.writeBytes c.marker print
  return finished

theorem renew_eq_clear (c : ArchiveCopy) : c.renew writeManifest =
    c.marking >>= fun print => Site.clear c.directory >>= fun _ => makeCopy c print := by
  unfold ArchiveCopy.renew Site.clear
  refine bind_congr fun print => ?_
  rw [bind_assoc]
  refine bind_congr fun there => ?_
  cases there with
  | false => rfl
  | true => rfl

namespace Site

variable (s : Site)

section Make

/-- Makes a copy where there is none. -/
def make (print : List UInt8) : Action Unit := do
  Archive.extract s.archive s.library
  let finished ← writeManifest s.library
  Disk.makeDirectories s.copy.marker.parent
  Disk.writeBytes s.copy.marker print
  return finished

theorem renew_eq : s.copy.renew writeManifest =
    s.copy.marking >>= fun print => clear s.library >>= fun _ => s.make print :=
  renew_eq_clear s.copy

theorem parent_marker : s.copy.marker.parent = s.library :=
  NativeLibrary.parent_marker s.library

/-- What has to go well for a copy to be made. -/
def Makes (around : Surroundings) (bytes : List UInt8) (w w' : World) : Prop :=
  s.archive.suffix ∈ Archive.knownSuffixes ∧
    ∃ v, perform (makeDirectories s.library) around w = (.ok (), v) ∧
      perform (fill s.library bytes) around v = (.ok (), w')

variable {s}

theorem standing_of_perform_fill {fault : Fault} (hseen : s.contents bytes)
    (hw : Prepared s.library w.tree)
    (h : perform (fill s.library bytes) around w = (.error fault, w')) : s.Standing w'.tree := by
  obtain ⟨hagree, -⟩ := (local_fill s.isAbsolute_library rfl (fun _ hv => hv) bytes).alone
    (hw.agree hw) h
  have hunmarked := unmarked_of_perform_fill s.isAbsolute_library (s.shipsNoMarker bytes hseen)
    hw.bare.unmarked h
  exact ⟨hagree.wellFormed.1, .inr (leads_of_agree hagree hw.leads),
    fun hmarked => absurd hunmarked hmarked⟩

theorem perform_extract (hbytes : bytesAt s.archive w.tree around.directory = .ok bytes) :
    (∃ fault v, perform (makeDirectories s.library) around w = (.error fault, v) ∧
        perform (Archive.extract s.archive s.library) around w = (.error fault, v)) ∨
      ∃ v, perform (makeDirectories s.library) around w = (.ok (), v) ∧
        (s.archive.suffix ∉ Archive.knownSuffixes ∧ (∃ fault,
            perform (Archive.extract s.archive s.library) around w = (.error fault, v)) ∨
          s.archive.suffix ∈ Archive.knownSuffixes ∧
            ((∃ fault fault' w', perform (pour s.library bytes) around v = (.error fault, w') ∧
                perform (Archive.extract s.archive s.library) around w = (.error fault', w')) ∨
              ∃ w', perform (pour s.library bytes) around v = (.ok (), w') ∧
                perform (Archive.extract s.archive s.library) around w = (.ok (), w'))) := by
  obtain ⟨hask, hloc, f, hnode, -⟩ := bytesAt_eq_ok_iff.1 hbytes
  have hthere : perform (isOccupied s.archive) around w = (.ok true, w) := by
    rw [perform_isOccupied, answerAt_of_locate hask hloc, hnode]
    rfl
  have hadded := adds_makeDirectories around s.library w
  unfold Archive.extract
  rw [perform_bind_ok hthere]
  simp only [Bool.not_true, Bool.false_eq_true, if_false]
  rcases hmake : perform (makeDirectories s.library) around w with ⟨fault | _, v⟩
  · exact .inl ⟨fault, v, rfl, perform_bind_error hmake⟩
  · rw [hmake] at hadded
    refine .inr ⟨v, rfl, ?_⟩
    rw [perform_bind_ok hmake]
    by_cases hknown : s.archive.suffix ∈ Archive.knownSuffixes
    · refine .inr ⟨hknown, ?_⟩
      have hread : perform (readBytes s.archive) around v = (.ok bytes, v) := by
        rw [perform_readBytes, s.bytesAt_of_added hadded hbytes]
      rw [if_neg (not_not.2 hknown), perform_bind, perform_outcome, perform_bind_ok hread]
      change (∃ fault fault' w', perform (pour s.library bytes) around v = (.error fault, w') ∧
        _) ∨ _
      rcases hpour : perform (pour s.library bytes) around v with ⟨fault | _, w'⟩
      · refine .inl ⟨fault, ?_⟩
        unfold pour at hpour
        rw [hpour]
        cases fault <;> exact ⟨_, w', rfl, rfl⟩
      · refine .inr ⟨w', rfl, ?_⟩
        unfold pour at hpour
        rw [hpour]
        rfl
    · refine .inl ⟨hknown, .extraction (.unsupported s.archive.suffix), ?_⟩
      rw [if_pos hknown]
      rfl

/-- A copy is made, or a place is left where the next run can start. -/
theorem perform_make (hwf : w.tree.WellFormed) (hbare : Bare s.library w.tree)
    (hbytes : bytesAt s.archive w.tree around.directory = .ok bytes) (hseen : s.contents bytes) :
    (∃ w', s.Makes around bytes w w' ∧
        perform (s.make (markingOf bytes)) around w = (.ok (), w')) ∨
      (¬ ∃ w', s.Makes around bytes w w') ∧
        ∃ fault w', perform (s.make (markingOf bytes)) around w = (.error fault, w') ∧
          s.Standing w'.tree := by
  unfold make
  rcases perform_extract hbytes with ⟨fault, v, hmake, hextract⟩ | ⟨v, hmake, hcases⟩
  · obtain ⟨hwf', hbare'⟩ := bare_of_makeDirectories s.isAbsolute_library hwf hbare hmake
    refine .inr ⟨?_, fault, v, perform_bind_error hextract, .of_bare s hwf' hbare'⟩
    rintro ⟨w', -, v', hmake', -⟩
    rw [hmake] at hmake'
    cases hmake'
  · have hprepared := prepared_of_makeDirectories s.isAbsolute_library hwf hbare hmake
    -- whoever fills the directory gets what is got here
    have hnever : (∀ w', perform (fill s.library bytes) around v ≠ (.ok (), w')) →
        ¬ ∃ w', s.Makes around bytes w w' := by
      rintro hfill ⟨w', -, v', hmake', hfill'⟩
      rw [hmake] at hmake'
      cases hmake'
      exact hfill w' hfill'
    have hbroken : ∀ {fault : Fault} {w' : World},
        perform (fill s.library bytes) around v = (.error fault, w') →
        (¬ ∃ w', s.Makes around bytes w w') ∧ s.Standing w'.tree := fun hfill =>
      ⟨hnever fun w'' hok => (by rw [hfill] at hok; cases hok),
        standing_of_perform_fill hseen hprepared hfill⟩
    rcases hcases with ⟨hunknown, fault, hextract⟩ |
      ⟨hknown, ⟨fault, fault', w', hpour, hextract⟩ | ⟨w₁, hpour, hextract⟩⟩
    · refine .inr ⟨fun ⟨_, hmakes⟩ => hunknown hmakes.1, fault, v, perform_bind_error hextract,
        .of_bare s hprepared.wellFormed hprepared.bare⟩
    · obtain ⟨hnot, hstanding⟩ := hbroken (perform_bind_error hpour)
      exact .inr ⟨hnot, fault', w', perform_bind_error hextract, hstanding⟩
    · rw [perform_bind_ok hextract]
      obtain ⟨hagree₁, -⟩ := (local_pour s.isAbsolute_library rfl bytes).alone
        (hprepared.agree hprepared) hpour
      rcases hmanifest : perform (writeManifest s.library) around w₁ with ⟨fault | _, w₂⟩
      · obtain ⟨hnot, hstanding⟩ :=
          hbroken ((perform_bind_ok hpour).trans (perform_bind_error hmanifest))
        exact .inr ⟨hnot, fault, w₂, perform_bind_error hmanifest, hstanding⟩
      · obtain ⟨hagree₂, -⟩ := (local_writeManifest s.isAbsolute_library
          fun _ hv => hv).alone hagree₁ hmanifest
        have hleads := (leads_of_agree hagree₂ hprepared.leads).of_absolute s.isAbsolute_library
          around.directory
        have hfill : perform (fill s.library bytes) around v =
            perform (writeBytes s.copy.marker (markingOf bytes)) around w₂ :=
          (perform_bind_ok hpour).trans (perform_bind_ok hmanifest)
        rw [perform_bind_ok hmanifest, parent_marker,
          perform_bind_ok (perform_makeDirectories_there hleads)]
        rcases hmarker : perform (writeBytes s.copy.marker (markingOf bytes)) around w₂ with
          ⟨fault | _, w'⟩
        · obtain ⟨hnot, hstanding⟩ := hbroken (hfill.trans hmarker)
          exact .inr ⟨hnot, fault, w', perform_bind_error hmarker, hstanding⟩
        · exact .inl ⟨w', ⟨hknown, v, hmake, hfill.trans hmarker⟩, perform_bind_ok hmarker⟩

end Make

end Site

end Renewing

end StagedBuild.NativeLibrary
