import StagedBuild.Proofs.Archive.Damage
import StagedBuild.Proofs.Build.OutputTool
import StagedBuild.Proofs.NativeLibrary.Phases

/-!
How unpacking the native library fails. What an archive is refused for is reported as a failure of
unpacking; every other fault on the way goes through as it is.
-/

namespace StagedBuild

/-- A fault that is no failure of a build: a refusal, damage in an archive, or a manifest of which
nothing can be made. -/
def Fault.IsUntyped : Fault → Prop
  | .noAttribute | .tooDeep => True
  | fault => fault.IsRefusal ∨ fault.IsStray

theorem Fault.IsRefusal.isUntyped {fault : Fault} (h : fault.IsRefusal) : fault.IsUntyped := by
  cases fault <;> first | exact .inl h | trivial

theorem Fault.IsStray.isUntyped {fault : Fault} (h : fault.IsStray) : fault.IsUntyped := by
  cases fault <;> first | exact .inr h | trivial

namespace NativeLibrary

open Action Disk Fault Manifest

variable {around : Surroundings} {w w' v : World} {plan : Plan} {bytes : List UInt8}
  {fault : Fault}

section Unpacking

/-- A failure of unpacking, for what an archive is refused for. -/
def unpackFault (plan : Plan) (cause : ExtractionFault) : Fault :=
  .build (.unpackFailed ("Failed to unpack " ++ plan.archive.name ++ ": " ++ cause.message))

/-- The world after the user was told whether the copy was made anew. -/
def told (plan : Plan) (renewed : Bool) (w : World) : World :=
  if plan.verbose then
    let state := if renewed then "unpacked" else "up to date"
    let line := "      Native library " ++ state ++ ": " ++ plan.libraryDirectory.text ++ "\n"
    { w with history := .printed .output line :: w.history }
  else w

theorem told_tree (plan : Plan) (renewed : Bool) (w : World) :
    (told plan renewed w).tree = w.tree := by
  unfold told
  split <;> rfl

/-- What is done once the copy was seen to. -/
def finish (plan : Plan) : Except Fault (Option Unit) → Action Manifest
  | .ok renewed => do
    if plan.verbose then
      let state := if renewed.isSome then "unpacked" else "up to date"
      Action.say ("      Native library " ++ state ++ ": " ++ plan.libraryDirectory.text)
    load plan.libraryDirectory
  | .error (.extraction cause) => throw (unpackFault plan cause)
  | .error fault => throw fault

theorem unpack_eq (plan : Plan) :
    unpack plan = Action.outcome ((copyOf plan).freshen writeManifest) >>= finish plan :=
  rfl

theorem finish_error (h : ∀ cause, fault ≠ .extraction cause) :
    finish plan (.error fault) = throw fault := by
  cases fault <;> first | rfl | exact absurd rfl (h _)

theorem perform_finish_ok (renewed : Option Unit) :
    perform (finish plan (.ok renewed)) around v =
      perform (load plan.libraryDirectory) around (told plan renewed.isSome v) := by
  unfold finish told
  cases plan.verbose with
  | true => exact perform_bind_ok (perform_note _ _ _)
  | false => rfl

theorem endsIn_finish_ok (renewed : Option Unit) :
    EndsIn around v (finish plan (.ok renewed)) fault ↔
      EndsIn around (told plan renewed.isSome v) (load plan.libraryDirectory) fault := by
  rw [EndsIn, EndsIn, perform_finish_ok]

/-- Unpacking ends in a fault when seeing to the copy does or when the manifest cannot be loaded.
What an archive is refused for is reported as a failure of the build. -/
theorem endsIn_unpack_iff :
    EndsIn around w (unpack plan) fault ↔
      (∃ cause, EndsIn around w ((copyOf plan).freshen writeManifest) (.extraction cause) ∧
        fault = unpackFault plan cause) ∨
      (EndsIn around w ((copyOf plan).freshen writeManifest) fault ∧
        ∀ cause, fault ≠ .extraction cause) ∨
      ∃ renewed v, perform ((copyOf plan).freshen writeManifest) around w = (.ok renewed, v) ∧
        EndsIn around (told plan renewed.isSome v) (load plan.libraryDirectory) fault := by
  have houtcome := perform_outcome ((copyOf plan).freshen writeManifest) around w
  rw [unpack_eq, EndsIn.bind_iff_of_ok houtcome]
  unfold EndsIn
  rcases perform ((copyOf plan).freshen writeManifest) around w with ⟨cause | renewed, v⟩
  · by_cases hcause : ∃ e, cause = .extraction e
    · obtain ⟨e, rfl⟩ := hcause
      refine EndsIn.throw_iff.trans ⟨fun h => .inl ⟨e, rfl, h.symm⟩, ?_⟩
      rintro (⟨_, ⟨⟩, h⟩ | ⟨h, hne⟩ | ⟨_, _, h, -⟩)
      · exact h.symm
      · exact absurd (Except.error.inj h).symm (hne e)
      · cases h
    · have hne : ∀ e, cause ≠ .extraction e := fun e h => hcause ⟨e, h⟩
      rw [finish_error hne]
      refine EndsIn.throw_iff.trans ⟨fun h => .inr (.inl ⟨congrArg _ h, h ▸ hne⟩), ?_⟩
      rintro (⟨e, h, -⟩ | ⟨h, -⟩ | ⟨_, _, h, -⟩)
      · exact absurd (Except.error.inj h) (hne e)
      · exact Except.error.inj h
      · cases h
  · refine (endsIn_finish_ok renewed).trans ⟨fun h => .inr (.inr ⟨renewed, v, rfl, h⟩), ?_⟩
    rintro (⟨_, h, -⟩ | ⟨h, -⟩ | ⟨_, _, h, hload⟩)
    · cases h
    · cases h
    · cases h
      exact hload

end Unpacking

section Phases

theorem refused_clear (lib : Path) : FailsOnly IsRefusal (Site.clear lib) :=
  (refused_isOccupied lib).bind fun _ =>
    FailsOnly.ite (fun _ => refused_removeTree lib) fun _ => FailsOnly.pure ()

theorem refused_scan (lib : Path) : FailsOnly IsRefusal (scan lib) :=
  (refused_entriesBelow lib).bind fun _ => FailsOnly.pure _

theorem refused_write (m : Manifest) : FailsOnly IsRefusal m.write :=
  (refused_writeBytes _ _).bind fun _ => FailsOnly.pure _

theorem refused_writeManifest (lib : Path) : FailsOnly IsRefusal (writeManifest lib) :=
  (refused_scan lib).bind fun m => (refused_write m).bind fun _ => FailsOnly.pure ()

theorem damage_pour (lib : Path) (bytes : List UInt8) : FailsOnly IsDamage (pour lib bytes) :=
  (FailsOnly.ofExcept (Archive.damage_members bytes)).bind fun all =>
    Archive.damage_extractMembers bytes lib all

end Phases

section Loading

/-- What a manifest that cannot be read ends in: a new one is made unless it is the last two. -/
def IsUnreadable (fault : Fault) : Prop :=
  isRepairable fault = true ∨ fault = .noAttribute ∨ fault = .tooDeep

theorem repairable_sourceOf (root : Path) (name : String) (entry : Json) :
    OnlyFaults (fun fault => isRepairable fault = true) (sourceOf root name entry) := by
  unfold sourceOf
  split
  · split
    · exact OnlyFaults.error rfl
    · split
      · exact OnlyFaults.ok _
      · exact OnlyFaults.error rfl
    · exact OnlyFaults.error rfl
  · exact OnlyFaults.error rfl

theorem repairable_sourcesOf_object (root : Path) (members : List (String × Json)) :
    OnlyFaults (fun fault => isRepairable fault = true) (sourcesOf root (.object members)) :=
  OnlyFaults.mapM fun _ _ => repairable_sourceOf root _ _

theorem unreadable_sourcesOf (root : Path) (value : Json) :
    OnlyFaults IsUnreadable (sourcesOf root value) := by
  cases value with
  | object members => exact (repairable_sourcesOf_object root members).mono fun _ => .inl
  | _ => exact OnlyFaults.error (.inr (.inl rfl))

theorem Fault.IsRefusal.isRepairable (h : fault.IsRefusal) : isRepairable fault = true := by
  unfold Fault.IsRefusal at h
  split at h
  · rfl
  · rfl
  · exact h.elim

theorem Fault.IsRefusal.isUnreadable (h : fault.IsRefusal) : IsUnreadable fault :=
  .inl (Fault.IsRefusal.isRepairable h)

theorem unreadable_readSources (root : Path) : FailsOnly IsUnreadable (readSources root) := by
  have hbytes : FailsOnly IsUnreadable (readBytes (root / fileName)) :=
    (refused_readBytes _).mono fun _ => Fault.IsRefusal.isUnreadable
  have htext : FailsOnly IsUnreadable (readText (root / fileName)) := by
    refine hbytes.bind fun bytes => ?_
    split
    · exact FailsOnly.pure _
    · exact FailsOnly.throw (.inl rfl)
  have hvalue : ∀ text, FailsOnly IsUnreadable
      (Json.ofText text) := by
    intro text around w
    rw [Json.perform_ofText]
    rcases Json.parse around.nesting text with cause | value
    · cases cause with
      | tooDeep => exact OnlyFaults.error (.inr (.inr rfl))
      | _ => exact OnlyFaults.error (.inl rfl)
    · exact OnlyFaults.ok value
  exact htext.bind fun text => (hvalue text).bind fun value =>
    FailsOnly.ofExcept (unreadable_sourcesOf root value)

theorem untyped_load (root : Path) : FailsOnly IsUntyped (load root) := by
  refine (unreadable_readSources root).outcome_bind (fun _ => FailsOnly.pure _)
    fun fault hfault => ?_
  by_cases hrepair : isRepairable fault = true
  · have hanew : FailsOnly IsRefusal (do
        let m ← scan root
        let _ ← m.write
        return m) :=
      (refused_scan root).bind fun m => (refused_write m).bind fun _ => FailsOnly.pure m
    refine FailsOnly.ite (fun _ => hanew.mono fun _ => Fault.IsRefusal.isUntyped)
      fun h => absurd hrepair h
  · refine FailsOnly.ite (fun h => absurd h hrepair) fun _ => FailsOnly.throw ?_
    rcases hfault with h | rfl | rfl
    · exact absurd h hrepair
    · trivial
    · trivial

end Loading

section Causes

/-- What an archive is refused for while it is unpacked: it is gone with the old copy, its suffix is
not that of an archive, or its bytes or the disk do not allow it to be poured out. -/
inductive GivesUp (around : Surroundings) (plan : Plan) (w : World) : ExtractionFault → Prop
  | missing {bytes : List UInt8} {v : World} (hold : IsOld around plan w bytes)
      (hcomes : ComesTo around plan w bytes .making v)
      (hgone : answerAt plan.archive v.tree around.directory = .ok none) :
      GivesUp around plan w (.missing plan.archive)
  | unsupported {bytes : List UInt8} {v : World} (hold : IsOld around plan w bytes)
      (hcomes : ComesTo around plan w bytes .pouring v)
      (hsuffix : plan.archive.suffix ∉ Archive.knownSuffixes) :
      GivesUp around plan w (.unsupported plan.archive.suffix)
  | malformed {bytes : List UInt8} {v : World} {cause : ArchiveFault}
      (hold : IsOld around plan w bytes) (hcomes : ComesTo around plan w bytes .pouring v)
      (hsuffix : plan.archive.suffix ∈ Archive.knownSuffixes)
      (hpour : EndsIn around v (pour plan.libraryDirectory bytes) (.archive cause)) :
      GivesUp around plan w (.malformed plan.archive cause)
  | refused {bytes : List UInt8} {v : World} {cause : SystemFault}
      (hold : IsOld around plan w bytes) (hcomes : ComesTo around plan w bytes .pouring v)
      (hsuffix : plan.archive.suffix ∈ Archive.knownSuffixes)
      (hpour : EndsIn around v (pour plan.libraryDirectory bytes) (.system cause)) :
      GivesUp around plan w (.refused plan.archive cause)

/-- What goes through as it is: the copy or its marker cannot be seen, the archive cannot be read
for its digest, the disk refuses to clear the place of the copy, to make it or to write beside what
was poured out, the archive is damaged in a way that is none of the faults of archives, or the
manifest that is there can be neither used nor replaced. -/
inductive LetsThrough (around : Surroundings) (plan : Plan) (w : World) : Fault → Prop
  | unseen {fault : Fault}
      (h : markAt plan.libraryDirectory w.tree around.directory = .error fault) :
      LetsThrough around plan w fault
  | unread {fault : Fault} {held : Option (List UInt8)}
      (hmark : markAt plan.libraryDirectory w.tree around.directory = .ok held)
      (h : bytesAt plan.archive w.tree around.directory = .error fault) :
      LetsThrough around plan w fault
  | refused {fault : Fault} {bytes : List UInt8} {phase : Phase} {v : World}
      (hold : IsOld around plan w bytes) (hcomes : ComesTo around plan w bytes phase v)
      (hphase : phase ≠ .pouring)
      (h : EndsIn around v (phase.action plan (markingOf bytes)) fault)
      (hrefusal : fault.IsRefusal) : LetsThrough around plan w fault
  | stray {fault : Fault} {bytes : List UInt8} {v : World} (hold : IsOld around plan w bytes)
      (hcomes : ComesTo around plan w bytes .pouring v)
      (hsuffix : plan.archive.suffix ∈ Archive.knownSuffixes)
      (hpour : EndsIn around v (pour plan.libraryDirectory bytes) fault)
      (hstray : fault.IsStray) : LetsThrough around plan w fault
  | unloaded {fault : Fault} {renewed : Option Unit} {v : World}
      (h : perform ((copyOf plan).freshen writeManifest) around w = (.ok renewed, v))
      (hload : EndsIn around (told plan renewed.isSome v) (load plan.libraryDirectory) fault) :
      LetsThrough around plan w fault

theorem refused_markAt (lib : Path) (t : FileTree) (cwd : Location) :
    OnlyFaults IsRefusal (markAt lib t cwd) := by
  unfold markAt
  refine (refused_answerAt lib t cwd).bind fun there => OnlyFaults.ite (fun _ => OnlyFaults.ok _)
    fun _ => ?_
  refine (refused_answerAt _ t cwd).bind fun marked => OnlyFaults.ite (fun _ => OnlyFaults.ok _)
    fun _ => ?_
  exact (refused_bytesAt _ t cwd).bind fun held => OnlyFaults.ok _

theorem LetsThrough.isUntyped (h : LetsThrough around plan w fault) : fault.IsUntyped := by
  cases h with
  | unseen h => exact (refused_markAt _ _ _ _ h).isUntyped
  | unread _ h => exact (refused_bytesAt _ _ _ _ h).isUntyped
  | refused _ _ _ _ hrefusal => exact hrefusal.isUntyped
  | stray _ _ _ _ hstray => exact hstray.isUntyped
  | unloaded _ hload => exact hload.of_failsOnly (untyped_load _)

theorem Fault.IsUntyped.ne_interrupted (h : fault.IsUntyped) : fault ≠ .interrupted := by
  rintro rfl
  rcases h with h | h <;> exact h

theorem Fault.IsUntyped.ne_extraction (h : fault.IsUntyped) (cause : ExtractionFault) :
    fault ≠ .extraction cause := by
  rintro rfl
  rcases h with h | h <;> exact h

theorem of_endsIn_phase {phase : Phase} (hold : IsOld around plan w bytes)
    (hcomes : ComesTo around plan w bytes phase v)
    (h : EndsIn around v (phase.action plan (markingOf bytes)) fault) :
    (∃ cause, GivesUp around plan w cause ∧ fault = .extraction cause) ∨
      LetsThrough around plan w fault := by
  have hrefused : phase ≠ .pouring → fault.IsRefusal → LetsThrough around plan w fault :=
    fun hphase hrefusal => .refused hold hcomes hphase h hrefusal
  cases phase with
  | clearing => exact .inr (hrefused (by decide) (h.of_failsOnly (refused_clear _)))
  | making =>
      rcases (endsIn_making_iff _).1 h with hanswer | ⟨hgone, rfl⟩ | ⟨-, hmake⟩
      · exact .inr (hrefused (by decide) (refused_answerAt _ _ _ _ hanswer))
      · exact .inl ⟨_, .missing hold hcomes hgone, rfl⟩
      · exact .inr (hrefused (by decide) (hmake.of_failsOnly (refused_makeDirectories _)))
  | pouring =>
      rcases (endsIn_pouring_iff (bytesAt_pouring hold hcomes) _).1 h with
        ⟨hsuffix, rfl⟩ | ⟨hsuffix, cause, hpour, rfl⟩
      · exact .inl ⟨_, .unsupported hold hcomes hsuffix, rfl⟩
      · have hdamage := hpour.of_failsOnly (damage_pour _ _)
        cases cause with
        | archive cause => exact .inl ⟨_, .malformed hold hcomes hsuffix hpour, rfl⟩
        | system cause => exact .inl ⟨_, .refused hold hcomes hsuffix hpour, rfl⟩
        | _ => exact .inr (.stray hold hcomes hsuffix hpour hdamage)
  | listing => exact .inr (hrefused (by decide) (h.of_failsOnly (refused_writeManifest _)))
  | placing => exact .inr (hrefused (by decide) (h.of_failsOnly (refused_makeDirectories _)))
  | marking => exact .inr (hrefused (by decide) (h.of_failsOnly (refused_writeBytes _ _)))

theorem endsIn_freshen_of_phase {phase : Phase} (hold : IsOld around plan w bytes)
    (hcomes : ComesTo around plan w bytes phase v)
    (h : EndsIn around v (phase.action plan (markingOf bytes)) fault) :
    EndsIn around w ((copyOf plan).freshen writeManifest) fault :=
  endsIn_freshen_iff.2 (.inr (.inr ⟨bytes, phase, v, hold, hcomes, h⟩))

theorem of_endsIn_freshen (h : EndsIn around w ((copyOf plan).freshen writeManifest) fault) :
    (∃ e, GivesUp around plan w e ∧ fault = .extraction e) ∨ LetsThrough around plan w fault := by
  rcases endsIn_freshen_iff.1 h with h | ⟨held, hmark, h⟩ | ⟨bytes, phase, v, hold, hcomes, h⟩
  · exact .inr (.unseen h)
  · exact .inr (.unread hmark h)
  · exact of_endsIn_phase hold hcomes h

theorem GivesUp.endsIn_freshen {cause : ExtractionFault} (h : GivesUp around plan w cause) :
    EndsIn around w ((copyOf plan).freshen writeManifest) (.extraction cause) := by
  cases h with
  | missing hold hcomes hgone =>
      exact endsIn_freshen_of_phase hold hcomes
        ((endsIn_making_iff _).2 (.inr (.inl ⟨hgone, rfl⟩)))
  | unsupported hold hcomes hsuffix =>
      exact endsIn_freshen_of_phase hold hcomes
        ((endsIn_pouring_iff (bytesAt_pouring hold hcomes) _).2 (.inl ⟨hsuffix, rfl⟩))
  | malformed hold hcomes hsuffix hpour | refused hold hcomes hsuffix hpour =>
      exact endsIn_freshen_of_phase hold hcomes
        ((endsIn_pouring_iff (bytesAt_pouring hold hcomes) _).2 (.inr ⟨hsuffix, _, hpour, rfl⟩))

theorem LetsThrough.endsIn_unpack (h : LetsThrough around plan w fault) :
    EndsIn around w (unpack plan) fault := by
  have hne := Fault.IsUntyped.ne_extraction h.isUntyped
  have hfreshen : EndsIn around w ((copyOf plan).freshen writeManifest) fault →
      EndsIn around w (unpack plan) fault := fun h => endsIn_unpack_iff.2 (.inr (.inl ⟨h, hne⟩))
  cases h with
  | unseen h => exact hfreshen (endsIn_freshen_iff.2 (.inl h))
  | unread hmark h => exact hfreshen (endsIn_freshen_iff.2 (.inr (.inl ⟨_, hmark, h⟩)))
  | refused hold hcomes _ h _ => exact hfreshen (endsIn_freshen_of_phase hold hcomes h)
  | stray hold hcomes hsuffix hpour hstray =>
      have hkept : fault = Phase.refusalOf plan.archive fault := by
        cases fault <;> first | rfl | exact hstray.elim
      exact hfreshen (endsIn_freshen_of_phase hold hcomes
        ((endsIn_pouring_iff (bytesAt_pouring hold hcomes) _).2
          (.inr ⟨hsuffix, fault, hpour, hkept⟩)))
  | unloaded h hload => exact endsIn_unpack_iff.2 (.inr (.inr ⟨_, _, h, hload⟩))

/-- Unpacking ends in a failure of the build exactly for what an archive is refused for, and
whatever else it ends in is no failure of a build. -/
theorem unpack_fails_iff (plan : Plan) (around : Surroundings) (w : World) (fault : Fault) :
    (perform (unpack plan) around w).1 = .error fault ↔
      (∃ cause, GivesUp around plan w cause ∧ fault = unpackFault plan cause) ∨
        LetsThrough around plan w fault ∧ fault.IsUntyped := by
  constructor
  · intro hends
    rcases endsIn_unpack_iff.1 hends with ⟨cause, h, rfl⟩ | ⟨h, hne⟩ | ⟨renewed, v, h, hload⟩
    · rcases of_endsIn_freshen h with ⟨e, hgives, heq⟩ | hlets
      · obtain rfl := Fault.extraction.inj heq
        exact .inl ⟨cause, hgives, rfl⟩
      · exact absurd rfl (Fault.IsUntyped.ne_extraction hlets.isUntyped cause)
    · rcases of_endsIn_freshen h with ⟨e, -, heq⟩ | hlets
      · exact absurd heq (hne e)
      · exact .inr ⟨hlets, hlets.isUntyped⟩
    · have hlets : LetsThrough around plan w fault := .unloaded h hload
      exact .inr ⟨hlets, hlets.isUntyped⟩
  · rintro (⟨cause, hgives, rfl⟩ | ⟨hlets, -⟩)
    · exact endsIn_unpack_iff.2 (.inl ⟨cause, hgives.endsIn_freshen, rfl⟩)
    · exact hlets.endsIn_unpack

end Causes

section NoUsableArchive

/-- An archive with a member whose packed byte is no deflated data. -/
def damagedArchive : List UInt8 :=
  [80, 75, 3, 4, 20, 0, 0, 0, 8, 0, 0, 0, 33, 0, 0, 0, 0, 0, 1, 0, 0, 0, 1, 0, 0, 0, 3, 0, 0, 0, 97,
    46, 99, 7, 80, 75, 1, 2, 20, 3, 20, 0, 0, 0, 8, 0, 0, 0, 33, 0, 0, 0, 0, 0, 1, 0, 0, 0, 1, 0, 0,
    0, 3, 0, 0, 0, 0, 0, 0, 0, 0, 0, 0, 0, 128, 1, 0, 0, 0, 0, 97, 46, 99, 80, 75, 5, 6, 0, 0, 0, 0,
    1, 0, 1, 0, 49, 0, 0, 0, 34, 0, 0, 0, 0, 0]

/-- An archive that is not there, and one that holds corrupt data: neither ends in a failure of
unpacking. -/
theorem unusable_archive_goes_through :
    EndsIn (.still []) (.ofTree .empty) (unpack planOfA) (.system (.on .noEntry "/a.jar")) ∧
      EndsIn (.still []) (.ofTree (FileTree.empty.writeFile ["a.jar"] damagedArchive))
        (unpack planOfA) (.corruptData .blockType) :=
  ⟨by decide +kernel, by decide +kernel⟩

end NoUsableArchive

end NativeLibrary

end StagedBuild
