import StagedBuild.Proofs.Build.FirstWord
import StagedBuild.Proofs.Compiler.Environment
import StagedBuild.Proofs.Compiler.Probe
import StagedBuild.Proofs.NativeLibrary.Understood
import StagedBuild.Proofs.NativeLibrary.Unusable
import StagedBuild.Proofs.Units.History

/-!
What a build does by itself, between the answers of tools and of the toolchain, ends in ordinary
faults only: settling the plan, sorting out units, and seeing to the native library.
-/

namespace StagedBuild

open Action Disk

theorem Json.ordinary_ofText (text : String) :
    FailsOnly (· ≠ .interrupted) (Json.ofText text) := by
  intro around w
  rw [Json.perform_ofText]
  rcases Json.parse around.nesting text with cause | value
  · exact OnlyFaults.error (by cases cause <;> nofun)
  · exact OnlyFaults.ok value

namespace Units

theorem ordinary_readRecord (workdir : Path) :
    FailsOnly (· ≠ .interrupted) (readRecord workdir) := by
  have hvalue : FailsOnly (· ≠ .interrupted) (readRecordValue (workdir / recordName)) :=
    (ordinary_readText _).bind fun _ => Json.ordinary_ofText _
  have hnames : ∀ value, OnlyFaults (· ≠ .interrupted) (recordedNames value) := by
    intro value
    cases value with
    | array _ | text _ | object _ => exact OnlyFaults.ok _
    | _ => exact OnlyFaults.error nofun
  refine hvalue.outcome_bind (fun value => ?_) fun fault hfault => ?_
  · exact (FailsOnly.ofExcept (hnames value)).bind fun _ => FailsOnly.pure _
  · refine FailsOnly.ite (fun _ => FailsOnly.pure _) fun _ => ?_
    refine FailsOnly.ite (fun _ => ?_) fun _ => FailsOnly.throw hfault
    exact FailsOnly.bind (fun _ _ => OnlyFaults.ok ()) fun _ => FailsOnly.pure _

theorem ordinary_stamps (workdir : Path) : FailsOnly (· ≠ .interrupted) (stamps workdir) := by
  have hfind : FailsOnly (· ≠ .interrupted) (find workdir) :=
    (refused_entriesBelow workdir).ordinary.bind fun _ => FailsOnly.pure _
  exact hfind.bind fun _ => FailsOnly.mapM fun u _ =>
    (refused_ask u _).ordinary.bind fun _ => FailsOnly.pure _

theorem ordinary_beforeCode (plan : Plan) : FailsOnly (· ≠ .interrupted) (beforeCode plan) := by
  have hremove : FailsOnly (· ≠ .interrupted) (removeRecorded plan.workdir) := by
    refine (ordinary_readRecord _).bind fun recorded => FailsOnly.forM fun u _ => ?_
    refine FailsOnly.ite (fun _ => ?_) fun _ => FailsOnly.pure _
    exact (refused_isFile u).ordinary.bind fun _ =>
      FailsOnly.ite (fun _ => (refused_change u _).ordinary) fun _ => FailsOnly.pure _
  exact (refused_makeDirectories _).ordinary.bind fun _ => hremove.bind fun _ => ordinary_stamps _

theorem ordinary_afterCode (plan : Plan) (before : List (Path × Nat)) :
    FailsOnly (· ≠ .interrupted) (afterCode plan before) := by
  have hnames : ∀ units, OnlyFaults (· ≠ .interrupted) (relativeNames plan.workdir units) := by
    refine fun units => OnlyFaults.mapM fun u _ => ?_
    cases u.relativeTo? plan.workdir with
    | some p => exact OnlyFaults.ok _
    | none => exact OnlyFaults.error nofun
  have hrecord : ∀ units, FailsOnly (· ≠ .interrupted) (writeRecord plan.workdir units) :=
    fun units => (FailsOnly.ofExcept (hnames units)).bind fun _ =>
      (refused_writeBytes _ _).ordinary.bind fun _ => FailsOnly.pure _
  exact (ordinary_stamps _).bind fun _ => (hrecord _).bind fun _ => FailsOnly.pure _

end Units

namespace NativeLibrary

theorem ordinary_unpack (plan : Plan) : FailsOnly (· ≠ .interrupted) (unpack plan) := by
  rintro around w fault hends rfl
  rcases endsIn_unpack_iff.1 hends with ⟨cause, -, hfault⟩ | ⟨hfreshen, hne⟩ | ⟨_, _, -, hload⟩
  · cases hfault
  · rcases of_endsIn_freshen hfreshen with ⟨e, -, hfault⟩ | hlets
    · exact hne e hfault
    · exact Fault.IsUntyped.ne_interrupted hlets.isUntyped rfl
  · exact Fault.IsUntyped.ne_interrupted (hload.of_failsOnly (untyped_load _)) rfl

theorem ordinary_prepare (plan : Plan) (links : List String) :
    FailsOnly (· ≠ .interrupted) (prepare plan links) := by
  have hselect : ∀ m : Manifest, OnlyFaults (· ≠ .interrupted) (m.select plan.gc links) := by
    refine fun m => (OnlyFaults.mapM fun s _ => OnlyFaults.bind ?_ fun _ => OnlyFaults.ok _).bind
      fun _ => OnlyFaults.ok _
    rcases isNeeded_cases s plan.gc links with ⟨⟨needed, h⟩, -⟩ | ⟨h, -⟩ <;> rw [h]
    · exact OnlyFaults.ok needed
    · exact OnlyFaults.error nofun
  have hremove : ∀ sources, FailsOnly (· ≠ .interrupted) (removeObjects sources) := by
    intro sources
    unfold removeObjects
    refine FailsOnly.filterMapM fun s _ => ?_
    refine (refused_isOccupied s.objectPath).ordinary.bind fun _ => ?_
    exact FailsOnly.ite (fun _ => (refused_change _ _).ordinary.bind fun _ => FailsOnly.pure _)
      fun _ => FailsOnly.pure _
  have hpending : ∀ sources, FailsOnly (· ≠ .interrupted) (withoutObject sources) := fun sources =>
    FailsOnly.filterM fun s _ => (refused_isOccupied s.objectPath).ordinary.bind fun _ =>
      FailsOnly.pure _
  exact (ordinary_unpack plan).bind fun m => (FailsOnly.ofExcept (hselect m)).bind fun _ =>
    (hremove _).bind fun _ => (hpending _).bind fun _ => FailsOnly.pure _

end NativeLibrary

namespace Compiler

theorem Finder.ordinary_locate (d : Finder) (binary : String) (versions : List Version) :
    FailsOnly (· ≠ .interrupted) (d.locate binary versions) := by
  intro around w
  rw [d.perform_locate]
  split
  · exact OnlyFaults.ok _
  · cases d.found? around w.tree (namesToTry binary versions) with
    | some location => exact OnlyFaults.ok _
    | none => exact OnlyFaults.error (by rintro ⟨⟩)

theorem ordinary_absolute (p : Path) : FailsOnly (· ≠ .interrupted) (absolute p) :=
  FailsOnly.ite (fun _ => FailsOnly.pure _) fun _ =>
    FailsOnly.bind (fun _ _ => OnlyFaults.ok _) fun _ => FailsOnly.pure _

theorem ordinary_findArchive (classpath : List Path) :
    FailsOnly (· ≠ .interrupted) (findArchive classpath) := by
  induction classpath with
  | nil => exact FailsOnly.throw nofun
  | cons entry rest ih =>
      exact (ordinary_absolute entry).bind fun _ =>
        FailsOnly.ite (fun _ => FailsOnly.pure _) fun _ => ih

theorem ordinary_answerProbe (workdir : Path) (r : ToolResult) :
    FailsOnly (· ≠ .interrupted) (answerProbe workdir r) := by
  have htriple : ∀ bytes, OnlyFaults (· ≠ .interrupted) (tripleIn r bytes) := by
    intro bytes
    unfold tripleIn
    rcases Text.decodeFile? bytes with _ | text
    · exact OnlyFaults.error nofun
    · dsimp only
      rcases parseTriple text with _ | triple
      · exact OnlyFaults.error nofun
      · exact OnlyFaults.ok triple
  have hread : ∀ t cwd, OnlyFaults (· ≠ .interrupted) (readAt (probeResult workdir) t cwd) := by
    refine fun t cwd => OnlyFaults.mono (OnlyFaults.bind (refused_answerAt _ t cwd) fun found => ?_)
      fun _ => Fault.IsRefusal.ne_interrupted
    exact OnlyFaults.ite (fun _ => (refused_bytesAt _ t cwd).map some) fun _ => OnlyFaults.ok none
  intro around w
  rw [perform_answerProbe]
  refine OnlyFaults.ite (fun _ => OnlyFaults.bind (hread _ _) fun found => ?_) fun _ =>
    OnlyFaults.error nofun
  rcases found with _ | bytes
  · exact OnlyFaults.error nofun
  · exact htriple bytes

end Compiler

namespace Build

theorem ordinary_jobCount (environment : List (String × String)) (asked : Setting Int) :
    FailsOnly (· ≠ .interrupted) (jobCount environment asked) := by
  unfold jobCount
  refine FailsOnly.bind (fun _ _ => OnlyFaults.ok _) fun _ => ?_
  split
  · exact FailsOnly.pure _
  · exact FailsOnly.throw nofun
  · split
    · exact FailsOnly.pure _
    · split
      · exact FailsOnly.pure _
      · exact FailsOnly.bind (fun _ _ => OnlyFaults.ok ()) fun _ => FailsOnly.pure _

end Build

end StagedBuild
