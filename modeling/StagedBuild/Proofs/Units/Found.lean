import StagedBuild.Proofs.Action.Alike
import StagedBuild.Proofs.Units.Frame
import StagedBuild.Proofs.Units.History

/-!
Generating code comes before any task that runs side by side, so neither the number of jobs nor the
order in which tasks end can be seen from it: in one world it does the same. The units are listed
below the work directory, each once, and code generation gives such a list whatever the toolchain
has written.
-/

namespace StagedBuild.Units

section Schedules

open Action Disk

theorem generate_congr {plan : Plan} {jobs : Int} {tools tools' : IrTools} {defns : List Definition}
    (h : ∀ w, tools'.generate { plan with jobs := jobs } defns w = tools.generate plan defns w) :
    generate { plan with jobs := jobs } tools' defns = generate plan tools defns := by
  have hcode : Intermediate.generate { plan with jobs := jobs } tools' defns =
      Intermediate.generate plan tools defns := by
    unfold Intermediate.generate
    simp only [h]
  unfold generate
  rw [hcode]

variable {around₁ around₂ : Surroundings} (hread : ReadAlike around₁ around₂)

include hread

theorem alike_removeRecorded (workdir : Path) :
    Alike Eq around₁ around₂ (removeRecorded workdir) := by
  have hvalue : Alike Eq around₁ around₂ (readRecordValue (workdir / recordName)) :=
    (alike_readText hread.directory _).bind fun text => Json.alike_ofText hread text
  have hrecord : Alike Eq around₁ around₂ (readRecord workdir) := by
    unfold readRecord
    refine hvalue.outcome.bind fun ended => ?_
    split
    · exact (Alike.ofExcept _ _).bind fun _ => .pure _
    · exact .ite (fun _ => .pure _) fun _ =>
        .ite (fun _ => (alike_note _).bind fun _ => .pure _) fun _ => .throw _
  exact hrecord.bind
    fun _ => .forM fun u => .ite (fun _ => (alike_isFile hread.directory u).bind fun _ =>
    .ite (fun _ => alike_unlink hread.directory u) fun _ => .pure _) fun _ => .pure _

theorem alike_stamps (workdir : Path) : Alike Eq around₁ around₂ (stamps workdir) := by
  have hstamp : ∀ p, Alike Eq around₁ around₂ (Disk.stamp p) := by
    rintro p w _ rfl
    rw [Disk.stamp, perform_ask, perform_ask, hread.directory]
    exact ⟨rfl, rfl⟩
  have hfind : Alike Eq around₁ around₂ (find workdir) :=
    (alike_entriesBelow hread.directory workdir).bind fun _ => .pure _
  exact hfind.bind fun _ => .mapM fun u => (hstamp u).bind fun _ => .pure _

theorem alike_generate (plan : Plan) (tools : IrTools) (defns : List Definition) :
    Alike Eq around₁ around₂ (generate plan tools defns) := by
  have hcode : Alike Eq around₁ around₂ (Intermediate.generate plan tools defns) := by
    rintro w _ rfl
    rw [perform_codeGeneration, perform_codeGeneration]
    exact ⟨rfl, rfl⟩
  have hrecord : ∀ units, Alike Eq around₁ around₂ (writeRecord plan.workdir units) := fun units =>
    (Alike.ofExcept _ _).bind fun _ => (alike_writeBytes hread.directory _ _).bind fun _ => .pure _
  unfold generate
  refine (alike_makeDirectories hread.directory _).bind
    fun _ => (alike_removeRecorded hread _).bind fun _ => ?_
  refine (alike_stamps hread _).bind fun before => hcode.bind fun _ => ?_
  exact (alike_stamps hread _).bind fun after => (hrecord _).bind fun _ => .pure _

end Schedules

section Lists

open Action FileTree Disk

variable {around : Surroundings} {w w' : World} {workdir : Path} {units : List Path}

/-- Ways to units, each once. -/
structure IsUnitListing (ways : List Location) : Prop where
  isUnitWay : ∀ way ∈ ways, IsUnitWay way
  named : ∀ way ∈ ways, ∀ s ∈ way, isEntryName s = true
  nodup : ways.Nodup

theorem IsUnitListing.unitWays {t : FileTree} (ht : t.WellFormed) (base : Location) :
    IsUnitListing (unitWays t base) where
  isUnitWay _ hway := (mem_unitWays.1 hway).1
  named _ hway := entryNames_of_isOccupied ht (mem_unitWays.1 hway).2
  nodup := unitWays_nodup t base

theorem of_perform_find (hw : w.tree.WellFormed)
    (h : perform (find workdir) around w = (.ok units, w')) :
    ∃ ways, IsUnitListing ways ∧ units = ways.map workdir.descend := by
  by_cases hdir : perform (isDirectory workdir) around w = (.ok true, w)
  · rw [perform_find hw (leads_of_isDirectory hdir).2] at h
    cases h
    exact ⟨_, .unitWays hw _, rfl⟩
  · -- without a directory nothing is found
    obtain ⟨entries, v, hentries, hunits⟩ := perform_bind_eq_ok.1 h
    unfold entriesBelow at hentries
    obtain ⟨there, u, hthere, hrest⟩ := perform_bind_eq_ok.1 hentries
    obtain rfl : u = w := by
      have hreadOnly := readOnly_isDirectory workdir around w
      rwa [hthere] at hreadOnly
    cases there with
    | true => exact absurd hthere hdir
    | false =>
        cases hrest
        cases hunits
        exact ⟨[], ⟨by simp, by simp, List.nodup_nil⟩, rfl⟩

theorem perform_find_of_stamps {stamped : List (Path × Nat)}
    (h : perform (stamps workdir) around w = (.ok stamped, w')) :
    perform (find workdir) around w = (.ok (stamped.map Prod.fst), w) := by
  obtain ⟨us, v, hfind, hstamps⟩ := perform_bind_eq_ok.1 h
  obtain rfl : v = w := by
    have hreadOnly := readOnly_find workdir around w
    rwa [hfind] at hreadOnly
  have hunits : ∀ (us : List Path) (stamped : List (Path × Nat)) (v w' : World),
      perform (us.mapM fun u => return (u, ← Disk.stamp u)) around v = (.ok stamped, w') →
        stamped.map Prod.fst = us := by
    intro us
    induction us with
    | nil =>
        intro stamped v w' h
        cases h
        rfl
    | cons u us ih =>
        intro stamped v w' h
        rw [List.mapM_cons] at h
        obtain ⟨first, v₁, hfirst, h₁⟩ := perform_bind_eq_ok.1 h
        obtain ⟨rest, v₂, hrest, h₂⟩ := perform_bind_eq_ok.1 h₁
        obtain ⟨s, v₃, -, h₃⟩ := perform_bind_eq_ok.1 hfirst
        cases h₃
        cases h₂
        rw [List.map_cons, ih rest _ _ hrest]
  rw [hunits us stamped v w' hstamps]
  exact hfind

/-- The toolchain of a call leaves a disk on which the current directory is still there. -/
def Call.LeavesDisk (c : Call) : Prop :=
  ∀ before v, perform (beforeCode c.plan) c.around c.before = (.ok before, v) →
    (c.treeFrom v).WellFormed ∧ (c.treeFrom v).isDirectory c.around.directory = true

theorem Call.LeavesDisk.found_of_ok {c : Call} (hcode : c.LeavesDisk)
    (hok : c.outcome = .ok units) :
    c.after.tree.WellFormed ∧ c.after.tree.isDirectory c.around.directory = true ∧
      ∃ ways, IsUnitListing ways ∧ units = ways.map c.plan.workdir.descend := by
  have hgenerate : perform (generate c.plan c.tools c.defns) c.around c.before =
      (.ok units, c.after) := Prod.ext hok rfl
  rw [generate_eq] at hgenerate
  obtain ⟨before, v, hbefore, hcalling⟩ := perform_bind_eq_ok.1 hgenerate
  obtain ⟨_, v₁, hcalled, hafter⟩ := perform_bind_eq_ok.1 hcalling
  have htree : c.treeFrom v = v₁.tree := by
    rw [perform_codeGeneration] at hcalled
    exact congrArg World.tree (Prod.mk.inj hcalled).2
  obtain ⟨hwf₁, hcwd₁⟩ := hcode before v hbefore
  rw [htree] at hwf₁ hcwd₁
  obtain ⟨hwf', hdirs⟩ := (sound_afterCode c.around c.plan before).of_perform hafter hwf₁ hcwd₁
  refine ⟨hwf', hdirs _ hcwd₁, ?_⟩
  obtain ⟨stamped, v₂, hstamps, hrest⟩ := perform_bind_eq_ok.1 hafter
  obtain ⟨_, v₃, -, hend⟩ := perform_bind_eq_ok.1 hrest
  cases hend
  exact of_perform_find hwf₁ (perform_find_of_stamps hstamps)

end Lists

end StagedBuild.Units
