import StagedBuild.Proofs.Units.Recording

/-!
One call of code generation as a whole. It stops before the toolchain is asked, or leaves the disk
as the toolchain left it, or succeeds; and what is known afterwards of a file in the work directory
follows from what was recorded before and from what the toolchain wrote.
-/

namespace StagedBuild.Units

open Action FileTree

variable {workdir : Path} {cwd : Location} {c : Call} {ways : List Location}

namespace Call

/-- The units with their stamps in a tree. -/
def stampsIn (c : Call) (t : FileTree) : List (Path × Nat) :=
  (unitWays t (goalOf c.around.directory c.plan.workdir)).map fun way =>
    (c.plan.workdir.descend way, stampAt t (goalOf c.around.directory c.plan.workdir ++ way))

/-- The tree in which the record lists the given ways, and that is the same elsewhere. -/
def RecordWritten (c : Call) (t t' : FileTree) (ways : List Location) : Prop :=
  ∃ f, Lists (some (.file f)) (ways.map Path.wayText) ∧ ∀ q, t'.node? q =
    if q = recordAt c.around.directory c.plan.workdir then some (.file f) else t.node? q

/-- How a call goes. -/
inductive Went (c : Call) : Prop
  | stopped (fault : Fault) :
      perform (beforeCode c.plan) c.around c.before = (.error fault, c.after) →
      c.outcome = .error fault → Went c
  | failed (v : World) (fault : Fault) :
      perform (beforeCode c.plan) c.around c.before = (.ok (c.stampsIn v.tree), v) →
      c.outcome = .error fault → c.after.tree = c.treeFrom v → Went c
  | succeeded (v : World) :
      perform (beforeCode c.plan) c.around c.before = (.ok (c.stampsIn v.tree), v) →
      c.outcome = .ok ((unitWays (c.treeFrom v)
        (goalOf c.around.directory c.plan.workdir)).map c.plan.workdir.descend) →
      c.RecordWritten (c.treeFrom v) c.after.tree (newWays (c.stampsIn v.tree) c.plan.workdir
        (c.treeFrom v) (goalOf c.around.directory c.plan.workdir)) → Went c

theorem went (hin : c.IsIn workdir cwd) (hwf : c.before.tree.WellFormed)
    (hcwd : c.before.tree.isDirectory cwd = true) (hfits : RecordFits workdir)
    (hrecords : Records workdir cwd c.before.tree ways) : c.Went := by
  obtain ⟨rfl, rfl, hwrites⟩ := hin
  have hgenerate : perform (generate c.plan c.tools c.defns) c.around c.before =
      (c.outcome, c.after) := rfl
  rw [generate_eq] at hgenerate
  rcases hbefore : perform (beforeCode c.plan) c.around c.before with ⟨fault | before, v⟩
  · rw [perform_bind_error hbefore] at hgenerate
    obtain ⟨houtcome, rfl⟩ := Prod.mk.inj hgenerate
    exact .stopped fault hbefore houtcome.symm
  · obtain ⟨hdir, rfl, -⟩ := beforeCode_ok hwf hcwd hfits hrecords hbefore
    have hwritten := hwrites _ v hbefore
    rw [perform_bind_ok hbefore] at hgenerate
    have hcode := perform_codeGeneration c.plan c.tools c.defns c.around v
    rcases hresult : (c.tools.generate c.plan c.defns (v.calling (.generate c.defns))).2 with
      fault | _
    · rw [hresult] at hcode
      rw [perform_bind_error hcode] at hgenerate
      obtain ⟨houtcome, hafter⟩ := Prod.mk.inj hgenerate
      exact .failed v fault hbefore houtcome.symm (hafter ▸ rfl)
    · rw [hresult] at hcode
      rw [perform_bind_ok hcode] at hgenerate
      have hdir' : Disk.LeadsToDirectory c.plan.workdir (c.treeFrom v) c.around.directory :=
        hdir.mono hwritten.directories
      rcases perform_afterCode (w := ⟨c.treeFrom v, .changed (c.treeFrom v) ::
          (v.calling (.generate c.defns)).history⟩) hwritten.wellFormed hdir' hfits
        (c.stampsIn v.tree) with ⟨fault, herror⟩ | ⟨w', f, hok, hf, hnodes⟩
      · obtain ⟨houtcome, hafter⟩ := Prod.mk.inj (herror.symm.trans hgenerate)
        exact .failed v fault hbefore houtcome.symm (hafter ▸ rfl)
      · obtain ⟨houtcome, hafter⟩ := Prod.mk.inj (hok.symm.trans hgenerate)
        exact .succeeded v hbefore houtcome.symm ⟨f, hf, hafter ▸ hnodes⟩

theorem succeeded_of_ok {units : List Path} (h : c.outcome = .ok units) : c.succeeded = true := by
  rw [succeeded, h]
  rfl

theorem not_succeeded_of_error {fault : Fault} (h : c.outcome = .error fault) :
    c.succeeded = false := by
  rw [succeeded, h]
  rfl

theorem wrote_iff {before : List (Path × Nat)} {v : World}
    (h : perform (beforeCode c.plan) c.around c.before = (.ok before, v)) (loc : Location) :
    c.Wrote loc ↔ Rewrote v.tree (c.treeFrom v) loc := by
  refine ⟨?_, fun hrewrote => ⟨before, v, h, hrewrote⟩⟩
  rintro ⟨before', v', h', hrewrote⟩
  rw [h] at h'
  cases h'
  exact hrewrote

theorem not_wrote_of_stopped {fault : Fault} {v : World}
    (h : perform (beforeCode c.plan) c.around c.before = (.error fault, v)) (loc : Location) :
    ¬ c.Wrote loc := by
  rintro ⟨before', v', h', -⟩
  rw [h] at h'
  cases h'

end Call

theorem ne_record_of_isUnitWay {way : Location} (h : IsUnitWay way) :
    goalOf cwd workdir ++ way ≠ recordAt cwd workdir := by
  intro heq
  rw [List.append_cancel_left heq] at h
  have hname : isUnitName recordName = false := by decide
  exact absurd h.2 (by simpa using hname)

theorem Cleared.isFile {base : Location} {w w' : World} {loc : Location}
    (h : Cleared base ways w w') (hfile : w.tree.isFile loc = true)
    (hnot : ¬ removable base ways loc) : w'.tree.isFile loc = true := by
  rcases h loc with hq | ⟨hnone, -⟩ | ⟨-, hplace, -⟩
  · exact isFile_congr hq ▸ hfile
  · obtain ⟨f, hf⟩ := isFile_iff.1 hfile
    rw [hnone] at hf
    cases hf
  · exact absurd hplace hnot

theorem Cleared.isFile_before {base : Location} {w w' : World} {loc : Location}
    (h : Cleared base ways w w') (hfile : w'.tree.isFile loc = true) :
    w.tree.isFile loc = true := by
  obtain ⟨f, hf⟩ := isFile_iff.1 hfile
  rcases h loc with hq | ⟨-, hdirectory⟩ | ⟨-, -, hnone⟩
  · exact isFile_congr hq ▸ hfile
  · rw [hdirectory] at hf
    cases hf
  · rw [hnone] at hf
    cases hf

theorem Records.of_cleared {w w' : World} (h : Records workdir cwd w.tree ways)
    (hcleared : Cleared (goalOf cwd workdir) ways w w') : Records workdir cwd w'.tree ways where
  names := by
    rcases hcleared (recordAt cwd workdir) with hq | ⟨hnone, hdirectory⟩ | ⟨-, hplace, -⟩
    · rw [hq]
      exact h.names
    · intro depth
      rw [← h.names depth, hnone, hdirectory]
      rfl
    · obtain ⟨way, -, hsuffix, heq⟩ := hplace
      have hway : [recordName] = way := List.append_cancel_left heq
      have hname : (Path.splitName recordName).2 ≠ suffix := by decide +kernel
      rw [← hway] at hsuffix
      exact absurd hsuffix hname
  entryNames := h.entryNames

theorem Records.congr {t t' : FileTree} (h : Records workdir cwd t ways)
    (hsame : t'.node? (recordAt cwd workdir) = t.node? (recordAt cwd workdir)) :
    Records workdir cwd t' ways :=
  ⟨hsame ▸ h.names, h.entryNames⟩

theorem sound_afterCode (around : Surroundings) (plan : Plan) (before : List (Path × Nat)) :
    Keeps around (Disk.Sound around.directory) (afterCode plan before) := by
  refine (Keeps.of_readOnly (readOnly_stamps _)).bind fun after => ?_
  refine Keeps.bind ?_ fun _ => Keeps.pure _
  refine (Keeps.of_readOnly (ReadOnly.ofExcept _ _)).bind fun names => ?_
  exact (Disk.sound_writeBytes (Disk.startsFrom_self _ _) _).bind fun _ => Keeps.pure _

theorem Call.sound_of_code
    (hcode : ∀ before v, perform (beforeCode c.plan) c.around c.before = (.ok before, v) →
      (c.treeFrom v).WellFormed ∧
        ∀ loc, v.tree.isDirectory loc = true → (c.treeFrom v).isDirectory loc = true)
    (hwf : c.before.tree.WellFormed)
    (hcwd : c.before.tree.isDirectory c.around.directory = true) :
    c.after.tree.WellFormed ∧
      ∀ loc, c.before.tree.isDirectory loc = true → c.after.tree.isDirectory loc = true := by
  have hbefore := sound_beforeCode c.around c.plan c.before hwf hcwd
  rw [Call.after, generate_eq, perform_bind]
  rcases hstart : perform (beforeCode c.plan) c.around c.before with ⟨fault | before, v⟩
  · rw [hstart] at hbefore
    exact hbefore
  · rw [hstart] at hbefore
    obtain ⟨hwritten, hkept⟩ := hcode _ v hstart
    have hdirs : ∀ loc, c.before.tree.isDirectory loc = true →
        (c.treeFrom v).isDirectory loc = true :=
      fun loc hloc => hkept loc (hbefore.2 loc hloc)
    dsimp only
    rw [perform_bind, perform_codeGeneration]
    rcases (c.tools.generate c.plan c.defns (v.calling (.generate c.defns))).2 with fault | _
    · exact ⟨hwritten, hdirs⟩
    · obtain ⟨hwf', hdirs'⟩ := sound_afterCode c.around c.plan before ⟨c.treeFrom v,
        .changed (c.treeFrom v) :: (v.calling (.generate c.defns)).history⟩
        hwritten (hdirs _ hcwd)
      exact ⟨hwf', fun loc hloc => hdirs' loc (hdirs loc hloc)⟩

theorem Call.sound (hin : c.IsIn workdir cwd) (hwf : c.before.tree.WellFormed)
    (hcwd : c.before.tree.isDirectory cwd = true) :
    c.after.tree.WellFormed ∧
      ∀ loc, c.before.tree.isDirectory loc = true → c.after.tree.isDirectory loc = true := by
  obtain ⟨rfl, rfl, hwrites⟩ := hin
  exact sound_of_code (fun before v h =>
    ⟨(hwrites before v h).wellFormed, (hwrites before v h).directories⟩) hwf hcwd

namespace Call

/-- What a call does to the files of its work directory, by what the record listed before. -/
structure Effect (c : Call) (workdir : Path) (cwd : Location) (ways : List Location) : Prop where
  kept : ∀ loc, c.before.tree.isFile loc = true →
    ¬ removable (goalOf cwd workdir) ways loc → c.after.tree.isFile loc = true
  written : ∀ loc, c.Wrote loc → c.after.tree.isFile loc = true
  unwritten : ∀ way, IsUnitWay way → c.after.tree.isFile (goalOf cwd workdir ++ way) = true →
    ¬ c.Wrote (goalOf cwd workdir ++ way) →
    c.before.tree.isFile (goalOf cwd workdir ++ way) = true
  failed : c.succeeded = false → Records workdir cwd c.after.tree ways
  recorded : c.succeeded = true → ∃ ways', Records workdir cwd c.after.tree ways' ∧
    ∀ way, IsUnitWay way → ¬ c.after.tree.isDirectory (goalOf cwd workdir ++ way) = true →
      (way ∈ ways' ↔ c.Wrote (goalOf cwd workdir ++ way))
  removed : c.succeeded = true → ∀ way ∈ ways, IsUnitWay way → HasSuffix way →
    ¬ c.Wrote (goalOf cwd workdir ++ way) →
    ¬ c.after.tree.isFile (goalOf cwd workdir ++ way) = true
  listed : ∀ units, c.outcome = .ok units → ∀ way, IsUnitWay way →
    c.after.tree.isFile (goalOf cwd workdir ++ way) = true → workdir.descend way ∈ units

section Written

variable {t t' : FileTree} {new : List Location} (h : c.RecordWritten t t' new)

include h

theorem RecordWritten.node?_unit {way : Location} (hunit : IsUnitWay way) :
    t'.node? (goalOf c.around.directory c.plan.workdir ++ way) =
      t.node? (goalOf c.around.directory c.plan.workdir ++ way) := by
  obtain ⟨f, -, hnodes⟩ := h
  rw [hnodes, if_neg (ne_record_of_isUnitWay hunit)]

theorem RecordWritten.isFile {loc : Location} (hfile : t.isFile loc = true) :
    t'.isFile loc = true := by
  obtain ⟨f, -, hnodes⟩ := h
  by_cases heq : loc = recordAt c.around.directory c.plan.workdir
  · exact isFile_iff.2 ⟨f, by rw [hnodes, if_pos heq]⟩
  · exact isFile_congr (t := t) (by rw [hnodes, if_neg heq]) ▸ hfile

theorem RecordWritten.records (hnew : ∀ way ∈ new, way ≠ [] ∧ ∀ s ∈ way, isEntryName s = true) :
    Records c.plan.workdir c.around.directory t' new := by
  obtain ⟨f, hf, hnodes⟩ := h
  refine ⟨?_, hnew⟩
  rw [hnodes, if_pos rfl]
  exact hf

end Written

section Effect

variable {v : World} {fault : Fault} (hfits : RecordFits c.plan.workdir)
  (hrecords : Records c.plan.workdir c.around.directory c.before.tree ways)

include hfits hrecords

theorem effect_of_stopped
    (hbefore : perform (beforeCode c.plan) c.around c.before = (.error fault, c.after))
    (houtcome : c.outcome = .error fault) :
    c.Effect c.plan.workdir c.around.directory ways := by
  have hcleared := beforeCode_changes hfits hrecords
  rw [hbefore] at hcleared
  have hfailed := not_succeeded_of_error houtcome
  exact {
    kept := fun loc hfile hnot => hcleared.isFile hfile hnot
    written := fun loc hwrote => absurd hwrote (not_wrote_of_stopped hbefore loc)
    unwritten := fun way _ hfile _ => hcleared.isFile_before hfile
    failed := fun _ => hrecords.of_cleared hcleared
    recorded := fun h => by simp [hfailed] at h
    removed := fun h => by simp [hfailed] at h
    listed := fun units h => by simp [houtcome] at h }

variable {before : List (Path × Nat)}
  (hwritten : WritesFiles (recordAt c.around.directory c.plan.workdir) v.tree (c.treeFrom v))

include hwritten

theorem effect_of_failed
    (hbefore : perform (beforeCode c.plan) c.around c.before = (.ok before, v))
    (houtcome : c.outcome = .error fault) (hafter : c.after.tree = c.treeFrom v) :
    c.Effect c.plan.workdir c.around.directory ways := by
  have hcleared := beforeCode_changes hfits hrecords
  rw [hbefore] at hcleared
  have hfailed := not_succeeded_of_error houtcome
  exact {
    kept := fun loc hfile hnot => hafter ▸ hwritten.files loc (hcleared.isFile hfile hnot)
    written := fun loc hwrote => hafter ▸ ((wrote_iff hbefore loc).1 hwrote).1
    unwritten := fun way _ hfile hnot => hcleared.isFile_before
      (isFile_of_not_rewrote hwritten.directories (hafter ▸ hfile)
        fun hrewrote => hnot ((wrote_iff hbefore _).2 hrewrote))
    failed := fun _ => (hrecords.of_cleared hcleared).congr (hafter ▸ hwritten.record)
    recorded := fun h => by simp [hfailed] at h
    removed := fun h => by simp [hfailed] at h
    listed := fun units h => by simp [houtcome] at h }

theorem effect_of_succeeded (hwf : c.before.tree.WellFormed)
    (hcwd : c.before.tree.isDirectory c.around.directory = true)
    (hbefore : perform (beforeCode c.plan) c.around c.before = (.ok (c.stampsIn v.tree), v))
    (houtcome : c.outcome = .ok ((unitWays (c.treeFrom v)
      (goalOf c.around.directory c.plan.workdir)).map c.plan.workdir.descend))
    (hrecord : c.RecordWritten (c.treeFrom v) c.after.tree (newWays (c.stampsIn v.tree)
      c.plan.workdir (c.treeFrom v) (goalOf c.around.directory c.plan.workdir))) :
    c.Effect c.plan.workdir c.around.directory ways := by
  have hcleared := beforeCode_changes hfits hrecords
  have hsound := sound_beforeCode c.around c.plan c.before hwf hcwd
  rw [hbefore] at hcleared hsound
  -- a unit that the toolchain did not write was there when it was asked
  have hleft : ∀ way, IsUnitWay way →
      c.after.tree.isFile (goalOf c.around.directory c.plan.workdir ++ way) = true →
      ¬ c.Wrote (goalOf c.around.directory c.plan.workdir ++ way) →
      v.tree.isFile (goalOf c.around.directory c.plan.workdir ++ way) = true :=
    fun way hunit hfile hnot => isFile_of_not_rewrote hwritten.directories
      (isFile_congr (hrecord.node?_unit hunit) ▸ hfile)
      fun hrewrote => hnot ((wrote_iff hbefore _).2 hrewrote)
  exact {
    kept := fun loc hfile hnot =>
      hrecord.isFile (hwritten.files loc (hcleared.isFile hfile hnot))
    written := fun loc hwrote => hrecord.isFile ((wrote_iff hbefore loc).1 hwrote).1
    unwritten := fun way hunit hfile hnot => hcleared.isFile_before (hleft way hunit hfile hnot)
    failed := fun h => by simp [succeeded_of_ok houtcome] at h
    recorded := fun _ => by
      refine ⟨_, hrecord.records (newWays_entryNames hwritten.wellFormed), fun way hunit hnot => ?_⟩
      rw [wrote_iff hbefore]
      exact mem_newWays_iff_rewrote hsound.1 hwritten.wellFormed hunit
        (isDirectory_congr (hrecord.node?_unit hunit) ▸ hnot)
    removed := fun _ way hway hunit hsuffix hnot hfile =>
      (beforeCode_ok hwf hcwd hfits hrecords hbefore).2.2 way hway hunit hsuffix
        (hleft way hunit hfile hnot)
    listed := fun units h way hunit hfile => by
      rw [houtcome] at h
      cases h
      refine List.mem_map_of_mem (mem_unitWays.2 ⟨hunit, isOccupied_of_isFile ?_⟩)
      exact isFile_congr (hrecord.node?_unit hunit) ▸ hfile }

end Effect

theorem effect (hin : c.IsIn workdir cwd) (hwf : c.before.tree.WellFormed)
    (hcwd : c.before.tree.isDirectory cwd = true) (hfits : RecordFits workdir)
    (hrecords : Records workdir cwd c.before.tree ways) : c.Effect workdir cwd ways := by
  have hwent := went hin hwf hcwd hfits hrecords
  obtain ⟨rfl, rfl, hwrites⟩ := hin
  cases hwent with
  | stopped fault hbefore houtcome => exact effect_of_stopped hfits hrecords hbefore houtcome
  | failed v fault hbefore houtcome hafter =>
      exact effect_of_failed hfits hrecords (hwrites _ v hbefore) hbefore houtcome hafter
  | succeeded v hbefore houtcome hrecord =>
      exact effect_of_succeeded hfits hrecords (hwrites _ v hbefore) hwf hcwd hbefore houtcome
        hrecord

end Call

end StagedBuild.Units
