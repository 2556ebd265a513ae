import StagedBuild.Proofs.Build.Places
import StagedBuild.Proofs.Units.Readable

/-!
Code generation once more. The units that were recorded go away first, as far as they are still
there. When the toolchain then does what it did before, the same units are there as before, and they
are recorded again.
-/

namespace StagedBuild.Units

open Action FileTree Disk

variable {around : Surroundings} {w w' : World} {plan : Plan} {ways : List Location} {f : File}

namespace Call

/-- A call that succeeds. It has cleared the recorded units away, the toolchain has ended well, and
on the disk that the toolchain left the units were listed and the new ones recorded. -/
structure Gave (c : Call) (v : World) (units : List Path) (f : File) : Prop where
  cleared : ∃ before, perform (beforeCode c.plan) c.around c.before = (.ok before, v)
  ended : (c.tools.generate c.plan c.defns (v.calling (.generate c.defns))).2 = .ok ()
  outcome : c.outcome = .ok units
  takes : TakesRecord c.plan.workdir c.around.directory (c.treeFrom v)
  units_eq : units = (unitWays (c.treeFrom v) (goalOf c.around.directory c.plan.workdir)).map
    c.plan.workdir.descend
  recorded : IsRecordOf ((unitWays (c.treeFrom v)
    (goalOf c.around.directory c.plan.workdir)).filter fun way =>
      IsNew v.tree (c.treeFrom v) (goalOf c.around.directory c.plan.workdir ++ way)) f
  after : ∀ q, c.after.tree.node? q =
    if q = recordAt c.around.directory c.plan.workdir then some (.file f)
    else (c.treeFrom v).node? q

variable {c : Call} {v : World} {before : List (Path × Nat)} {units : List Path}

section Succeeding

variable (hcode : c.WritesOnlyUnits) (hwf : c.before.tree.WellFormed)
  (hcwd : c.before.tree.isDirectory c.around.directory = true)

include hcode hwf hcwd

theorem gave_of_takes
    (hbefore : perform (beforeCode c.plan) c.around c.before = (.ok before, v))
    (hended : (c.tools.generate c.plan c.defns (v.calling (.generate c.defns))).2 = .ok ())
    (htakes : TakesRecord c.plan.workdir c.around.directory (c.treeFrom v)) :
    ∃ f, c.Gave v ((unitWays (c.treeFrom v) (goalOf c.around.directory c.plan.workdir)).map
      c.plan.workdir.descend) f := by
  have hleft := (hcode before v hbefore).wellFormed
  have hv := ((sound_beforeCode c.around c.plan).of_perform hbefore hwf hcwd).1
  obtain ⟨w', f, hok, hf, hnodes⟩ := htakes.perform_afterCode (w := c.worldFrom v) hleft before
  have hgenerate := (perform_generate_of_code hbefore hended).trans hok
  refine ⟨f, ⟨before, hbefore⟩, hended, congrArg Prod.fst hgenerate, htakes, rfl, ?_, ?_⟩
  · rw [← newWays_stamps hv hleft, ← stamped_of_beforeCode hwf hcwd hbefore]
    exact hf
  · rw [show c.after = w' from congrArg Prod.snd hgenerate]
    exact hnodes

theorem exists_gave (hok : c.outcome = .ok units) : ∃ v f, c.Gave v units f := by
  have hgenerate : perform (generate c.plan c.tools c.defns) c.around c.before =
      (.ok units, c.after) := Prod.ext hok rfl
  have hstages := hgenerate
  rw [generate_eq] at hstages
  obtain ⟨before, v, hbefore, hstages⟩ := perform_bind_eq_ok.1 hstages
  obtain ⟨_, v', hcalled, -⟩ := perform_bind_eq_ok.1 hstages
  rw [perform_codeGeneration] at hcalled
  have hended := (Prod.mk.inj hcalled).1
  have htakes := TakesRecord.of_perform_afterCode (w := c.worldFrom v)
    (hcode before v hbefore).wellFormed
    ((perform_generate_of_code hbefore hended).symm.trans hgenerate)
  obtain ⟨f, hgave⟩ := gave_of_takes hcode hwf hcwd hbefore hended htakes
  obtain rfl := Except.ok.inj (hok.symm.trans hgave.outcome)
  exact ⟨v, f, hgave⟩

end Succeeding

/-- The same call in another world. -/
def again (c : Call) (later : World) : Call :=
  { c with before := later }

/-- Asked for code in two worlds, the toolchain ends the same way and writes the same files. Each
time it makes only directories that the other time it makes or leaves as well. -/
structure SameCode (c : Call) (v v' : World) : Prop where
  ended : (c.tools.generate c.plan c.defns (v'.calling (.generate c.defns))).2 =
    (c.tools.generate c.plan c.defns (v.calling (.generate c.defns))).2
  written : ∀ q, Rewrote v'.tree (c.treeFrom v') q ↔ Rewrote v.tree (c.treeFrom v) q
  directories : ∀ q, (c.treeFrom v').isDirectory q = true →
    v'.tree.isDirectory q = true ∨ (c.treeFrom v).isDirectory q = true
  made : ∀ q, (c.treeFrom v).isDirectory q = true →
    v.tree.isDirectory q = true ∨ (c.treeFrom v').isDirectory q = true

/-- When the call is made once more, the toolchain does what it did. -/
def Repeats (c : Call) (later : World) : Prop :=
  ∀ before v before' v', perform (beforeCode c.plan) c.around c.before = (.ok before, v) →
    perform (beforeCode c.plan) c.around later = (.ok before', v') → c.SameCode v v'

end Call

section Clearing

theorem IsRecordOf.reads {workdir : Path} {t : FileTree} {cwd : Location} (hf : IsRecordOf ways f)
    (hleads : LeadsToDirectory workdir t cwd) (hfits : RecordFits workdir)
    (hnode : t.node? (recordAt cwd workdir) = some (.file f)) (depth : Nat) :
    RecordReads (depth + 1) workdir t cwd (.ok (.array ((ways.map Path.wayText).map .text))) := by
  have hplain := plain_names depth (ways.map Path.wayText)
  have hloc := locate_record hleads hfits
  have hgoal : goalOf cwd (workdir / recordName) = recordAt cwd workdir :=
    goalOf_child cwd workdir isEntryName_recordName
  refine ⟨f.bytes, recordText (ways.map Path.wayText), bytesAt_eq_ok_iff.2
    ⟨isAskable_record hleads, hgoal ▸ hloc, f, hgoal ▸ hnode, rfl⟩, ?_, Json.parse_document hplain⟩
  rw [hf.1]
  exact hplain.decodeFile?_document

theorem IsRecordOf.records {workdir : Path} {t : FileTree} {cwd : Location}
    (hf : IsRecordOf ways f)
    (hways : ∀ way ∈ ways, IsUnitWay way ∧ ∀ s ∈ way, isEntryName s = true)
    (hnode : t.node? (recordAt cwd workdir) = some (.file f)) : Records workdir cwd t ways where
  names := hnode ▸ hf.2
  entryNames way hway := ⟨(hways way hway).1.1, (hways way hway).2⟩

theorem not_refused_descend {workdir : Path} {t : FileTree} {cwd way : Location}
    (hleads : LeadsToDirectory workdir t cwd) (hnames : ∀ s ∈ way, isEntryName s = true)
    (hshort : (workdir.descend way).text.utf8ByteSize ≤ pathLimit) :
    ¬ Refused (workdir.descend way) t cwd := by
  have hfits : PathFits (workdir.descend way) := by
    refine ⟨hshort, fun s hs => ?_⟩
    rw [Path.steps_descend _ fun s hs => isStep_of_isEntryName (hnames s hs)] at hs
    rcases List.mem_append.1 hs with hs | hs
    · exact (locate_eq_ok_iff.1 hleads.locate).2.2.2 s hs
    · exact fits_of_isEntryName (hnames s hs)
  rintro ⟨-, hlong⟩
  obtain ⟨v, -, -, heq⟩ := locate_error hfits hlong
  split at heq <;> cases heq

variable (hwf : w.tree.WellFormed) (hcwd : w.tree.isDirectory around.directory = true)
  (hleads : LeadsToDirectory plan.workdir w.tree around.directory)
  (hfits : RecordFits plan.workdir)
  (hreach : ∀ way, IsUnitWay way →
    w.tree.isOccupied (goalOf around.directory plan.workdir ++ way) = true →
    (plan.workdir.descend way).text.utf8ByteSize ≤ pathLimit)
  (hf : IsRecordOf ways f)
  (hways : ∀ way ∈ ways, IsUnitWay way ∧ ∀ s ∈ way, isEntryName s = true)
  (hshort : ∀ way ∈ ways, (plan.workdir.descend way).text.utf8ByteSize ≤ pathLimit)
  (hnode : w.tree.node? (recordAt around.directory plan.workdir) = some (.file f))

include hleads hfits hf hways hshort hnode

theorem IsRecordOf.not_stopsGeneration :
    ¬ StopsGeneration around.nesting plan.workdir w.tree around.directory := by
  have hreads : RecordReads around.nesting plan.workdir _ _ _ := hf.reads hleads hfits hnode _
  rintro (⟨hunreadable⟩ | @⟨value, names, name, hreads', hnames, hname, -, hrefused⟩)
  · cases hunreadable with
    | noItems hscalar hvalue =>
        obtain rfl := Except.ok.inj (hreads.unique hscalar)
        exact hvalue
    | tooDeep hdeep => exact absurd (hreads.unique hdeep) (by simp)
  · obtain rfl := Except.ok.inj (hreads.unique hreads')
    rw [recordedNames_array] at hnames
    obtain rfl := Except.ok.inj hnames
    obtain ⟨way, hway, rfl⟩ := List.mem_map.1 hname
    obtain ⟨hunit, hentries⟩ := hways way hway
    rw [Path.div_wayText _ (fun s hs => isStep_of_isEntryName (hentries s hs)) hunit.1] at hrefused
    exact not_refused_descend hleads hentries (hshort way hway) hrefused

include hwf hcwd hreach

theorem IsRecordOf.exists_beforeCode : ∃ before v,
    perform (beforeCode plan) around w = (.ok before, v) ∧
      FilesGone (removable (goalOf around.directory plan.workdir) ways) w v := by
  obtain ⟨v, hremove⟩ := exists_perform_removeRecorded_iff.2
    (hf.not_stopsGeneration hleads hfits hways hshort hnode)
  have hgone := removeRecorded_changes hleads hfits (hf.records hways hnode)
  rw [hremove] at hgone
  obtain ⟨hv, hdirs⟩ := (sound_removeRecorded around plan.workdir).of_perform hremove hwf hcwd
  have hocc : ∀ q, v.tree.isOccupied q = true → w.tree.isOccupied q = true := by
    intro q hq
    rcases hgone q with heq | ⟨hfile, -⟩
    · exact isOccupied_congr heq ▸ hq
    · exact isOccupied_of_isFile hfile
  have hstamps := perform_stamps hv (hleads.mono hdirs) fun way hunit hq =>
    hreach way hunit (hocc _ hq)
  exact ⟨_, v, (perform_bind_ok (perform_makeDirectories_there hleads)).trans
    ((perform_bind_ok hremove).trans hstamps), hgone⟩

end Clearing

theorem FilesGone.isOccupied_before {places : Location → Prop} (h : FilesGone places w w')
    {q : Location} (hocc : w'.tree.isOccupied q = true) : w.tree.isOccupied q = true := by
  rcases h q with heq | ⟨hfile, -⟩
  · exact isOccupied_congr heq ▸ hocc
  · exact isOccupied_of_isFile hfile

theorem isOccupied_of_beforeCode {before : List (Path × Nat)} {q : Location}
    (h : perform (beforeCode plan) around w = (.ok before, w'))
    (hocc : w'.tree.isOccupied q = true) :
    w.tree.isOccupied q = true ∨ OnTheWay around.directory plan.workdir q := by
  obtain ⟨_, v, hmake, hrest⟩ := perform_bind_eq_ok.1 h
  obtain ⟨_, v', hremove, hstamps⟩ := perform_bind_eq_ok.1 hrest
  obtain rfl : w' = v' := by
    have hreadOnly := readOnly_stamps plan.workdir around v'
    rwa [hstamps] at hreadOnly
  rw [removeRecorded_eq] at hremove
  obtain ⟨us, u, hread, hunits⟩ := perform_bind_eq_ok.1 hremove
  have htree : u.tree = v.tree := by
    rcases perform_readRecord_cases plan.workdir around v with
      ⟨fault, -, hends⟩ | ⟨value, names, -, -, hvalue⟩ | ⟨-, u', hempty, htree⟩
    · rw [EndsIn, hread] at hends
      cases hends
    · rw [hread] at hvalue
      cases hvalue
      rfl
    · rw [hread] at hempty
      cases hempty
      exact htree
  have hgone := (keeps_removeUnits around us).of_perform hunits
  have hthere : v.tree.isOccupied q = true := htree ▸ hgone.isOccupied_before hocc
  rcases (adds_makeDirectories around plan.workdir).of_perform hmake q with heq | ⟨hway, -, -⟩
  · exact .inl (isOccupied_congr heq ▸ hthere)
  · exact .inr hway

namespace Call

variable {c : Call} {v v' later : World} {before : List (Path × Nat)} {units : List Path}

/-- The place of the record holds what the call left there, and so do the places of units, except
that what the toolchain made in places where nothing was may be gone. -/
structure KeepsUnits (c : Call) (v later : World) : Prop where
  wellFormed : later.tree.WellFormed
  directory : later.tree.isDirectory c.around.directory = true
  leads : LeadsToDirectory c.plan.workdir later.tree c.around.directory
  record : later.tree.node? (recordAt c.around.directory c.plan.workdir) =
    c.after.tree.node? (recordAt c.around.directory c.plan.workdir)
  units : ∀ way, IsUnitWay way →
    later.tree.node? (goalOf c.around.directory c.plan.workdir ++ way) =
        c.after.tree.node? (goalOf c.around.directory c.plan.workdir ++ way) ∨
      v.tree.node? (goalOf c.around.directory c.plan.workdir ++ way) = none ∧
        later.tree.node? (goalOf c.around.directory c.plan.workdir ++ way) = none

section Again

variable (hgave : c.Gave v units f) (hkept : c.KeepsUnits v later)

include hgave hkept

theorem Gave.node?_later {way : Location} (hunit : IsUnitWay way) :
    later.tree.node? (goalOf c.around.directory c.plan.workdir ++ way) =
        (c.treeFrom v).node? (goalOf c.around.directory c.plan.workdir ++ way) ∨
      v.tree.node? (goalOf c.around.directory c.plan.workdir ++ way) = none ∧
        later.tree.node? (goalOf c.around.directory c.plan.workdir ++ way) = none := by
  refine (hkept.units way hunit).imp_left fun heq => ?_
  rw [heq, hgave.after, if_neg (ne_record_of_isUnitWay hunit)]

theorem Gave.record_later :
    later.tree.node? (recordAt c.around.directory c.plan.workdir) = some (.file f) := by
  rw [hkept.record, hgave.after, if_pos rfl]

variable (hwf : (c.treeFrom v).WellFormed)

include hwf

theorem Gave.exists_beforeCode : ∃ before v',
    perform (beforeCode c.plan) c.around later = (.ok before, v') ∧
      FilesGone (removable (goalOf c.around.directory c.plan.workdir)
        ((unitWays (c.treeFrom v) (goalOf c.around.directory c.plan.workdir)).filter fun way =>
          IsNew v.tree (c.treeFrom v) (goalOf c.around.directory c.plan.workdir ++ way)))
            later v' := by
  have hunits : ∀ way ∈ (unitWays (c.treeFrom v)
      (goalOf c.around.directory c.plan.workdir)).filter fun way =>
        IsNew v.tree (c.treeFrom v) (goalOf c.around.directory c.plan.workdir ++ way),
      IsUnitWay way ∧
        (c.treeFrom v).isOccupied (goalOf c.around.directory c.plan.workdir ++ way) = true :=
    fun way hway => mem_unitWays.1 (List.mem_of_mem_filter hway)
  refine hgave.recorded.exists_beforeCode hkept.wellFormed hkept.directory hkept.leads
    hgave.takes.fits (fun way hunit hocc => ?_)
    (fun way hway => ⟨(hunits way hway).1, entryNames_of_isOccupied hwf (hunits way hway).2⟩)
    (fun way hway => hgave.takes.reachable way (hunits way hway).1 (hunits way hway).2)
    (hgave.record_later hkept)
  rcases hgave.node?_later hkept hunit with heq | ⟨-, hnone⟩
  · rw [isOccupied_congr heq] at hocc
    exact hgave.takes.reachable way hunit hocc
  · exact absurd hocc (not_isOccupied_iff.2 hnone)

omit hwf

variable (hfirst : WritesUnits (goalOf c.around.directory c.plan.workdir) v.tree (c.treeFrom v))
  (hcode : ∀ before v', perform (beforeCode c.plan) c.around later = (.ok before, v') →
    WritesUnits (goalOf c.around.directory c.plan.workdir) v'.tree (c.treeFrom v'))
  (hsame : c.SameCode v v')
  (hbefore : perform (beforeCode c.plan) c.around later = (.ok before, v'))
  (hgone : FilesGone (removable (goalOf c.around.directory c.plan.workdir)
    ((unitWays (c.treeFrom v) (goalOf c.around.directory c.plan.workdir)).filter fun way =>
      IsNew v.tree (c.treeFrom v) (goalOf c.around.directory c.plan.workdir ++ way))) later v')

include hfirst hcode hsame hbefore hgone

omit hgave hkept hfirst in
/-- A place that the toolchain does not write holds something again, if the disk has stayed as the
first call left it there. -/
theorem isOccupied_again_of_stayed {way : Location}
    (hwritten : ¬ Rewrote v.tree (c.treeFrom v) (goalOf c.around.directory c.plan.workdir ++ way))
    (hnode : later.tree.node? (goalOf c.around.directory c.plan.workdir ++ way) =
      (c.treeFrom v).node? (goalOf c.around.directory c.plan.workdir ++ way)) :
    (c.treeFrom v').isOccupied (goalOf c.around.directory c.plan.workdir ++ way) = true ↔
      (c.treeFrom v).isOccupied (goalOf c.around.directory c.plan.workdir ++ way) = true := by
  have hwrites := hcode _ _ hbefore
  obtain ⟨q, hq⟩ : ∃ q, q = goalOf c.around.directory c.plan.workdir ++ way := ⟨_, rfl⟩
  rw [← hq] at hwritten hnode ⊢
  have hnot : ¬ Rewrote v'.tree (c.treeFrom v') q := mt (hsame.written q).1 hwritten
  constructor
  · intro hocc
    rcases hwrites.changes q with heq | ⟨-, -, hdir⟩ | ⟨-, -, hrewrote⟩
    · rw [isOccupied_congr heq] at hocc
      rw [← isOccupied_congr hnode]
      exact hgone.isOccupied_before hocc
    · rcases hsame.directories q (isDirectory_iff.2 hdir) with hold | hmade
      · rw [← isOccupied_congr hnode]
        exact hgone.isOccupied_before (isOccupied_of_isDirectory hold)
      · exact isOccupied_of_isDirectory hmade
    · exact absurd hrewrote hnot
  · intro hocc
    -- it was not recorded, unless it is a directory
    have hstays : v'.tree.node? q = later.tree.node? q := by
      refine (hgone q).resolve_right ?_
      rintro ⟨hfile, ⟨other, hother, -, heq⟩, -⟩
      obtain rfl : way = other := List.append_cancel_left (hq.symm.trans heq)
      rw [isFile_congr hnode] at hfile
      have hnew := of_decide_eq_true (List.mem_filter.1 hother).2
      rw [← hq, isNew_iff_rewrote hfile] at hnew
      exact hwritten hnew
    have hthere : v'.tree.isOccupied q = true := isOccupied_congr (hstays.trans hnode) ▸ hocc
    rcases hwrites.changes q with heq | ⟨-, hnone, -⟩ | ⟨-, -, hrewrote⟩
    · exact isOccupied_congr heq ▸ hthere
    · exact absurd hthere (not_isOccupied_iff.2 hnone)
    · exact isOccupied_of_isFile hrewrote.1

omit hgave hkept in
/-- Where nothing was before either call, only a directory can have been made without being
written, and it is made again. -/
theorem isOccupied_again_of_lost {q : Location} (hwritten : ¬ Rewrote v.tree (c.treeFrom v) q)
    (hnone : v.tree.node? q = none) (hlost : later.tree.node? q = none) :
    (c.treeFrom v').isOccupied q = true ↔ (c.treeFrom v).isOccupied q = true := by
  have hbare : ¬ v'.tree.isOccupied q = true := fun hocc =>
    not_isOccupied_iff.2 hlost (hgone.isOccupied_before hocc)
  constructor
  · intro hocc
    rcases (hcode _ _ hbefore).changes q with heq | ⟨-, -, hdir⟩ | ⟨-, -, hrewrote⟩
    · exact absurd (isOccupied_congr heq ▸ hocc) hbare
    · exact isOccupied_of_isDirectory
        ((hsame.directories q (isDirectory_iff.2 hdir)).resolve_left
          fun hold => hbare (isOccupied_of_isDirectory hold))
    · exact absurd ((hsame.written q).1 hrewrote) hwritten
  · intro hocc
    rcases hfirst.changes q with heq | ⟨-, -, hdir⟩ | ⟨-, -, hrewrote⟩
    · rw [isOccupied_congr heq] at hocc
      exact absurd hocc (not_isOccupied_iff.2 hnone)
    · exact isOccupied_of_isDirectory ((hsame.made q (isDirectory_iff.2 hdir)).resolve_left
        fun hold => not_isOccupied_iff.2 hnone (isOccupied_of_isDirectory hold))
    · exact absurd hrewrote hwritten

/-- Units are in the same places again. One that the toolchain did not write has stayed, and one
that it wrote is written again. A directory that it made where nothing was has stayed or is made
again. -/
theorem Gave.isOccupied_again {way : Location} (hunit : IsUnitWay way) :
    (c.treeFrom v').isOccupied (goalOf c.around.directory c.plan.workdir ++ way) = true ↔
      (c.treeFrom v).isOccupied (goalOf c.around.directory c.plan.workdir ++ way) = true := by
  by_cases hwritten : Rewrote v.tree (c.treeFrom v)
    (goalOf c.around.directory c.plan.workdir ++ way)
  · exact iff_of_true (isOccupied_of_isFile ((hsame.written _).2 hwritten).1)
      (isOccupied_of_isFile hwritten.1)
  · rcases hgave.node?_later hkept hunit with hnode | ⟨hnone, hlost⟩
    · exact isOccupied_again_of_stayed hcode hsame hbefore hgone hwritten hnode
    · exact isOccupied_again_of_lost hfirst hcode hsame hbefore hgone hwritten hnone hlost

theorem Gave.takes_again : TakesRecord c.plan.workdir c.around.directory (c.treeFrom v') where
  leads := hkept.leads.mono fun q hq => by
    refine (hcode _ _ hbefore).isDirectory ?_
    rcases hgone q with heq | ⟨hfile, -⟩
    · exact isDirectory_congr heq ▸ hq
    · exact absurd hfile (not_isFile_of_isDirectory hq)
  reachable way hunit hocc := hgave.takes.reachable way hunit
    ((hgave.isOccupied_again hkept hfirst hcode hsame hbefore hgone hunit).1 hocc)
  fits := hgave.takes.fits
  free hdir := by
    rcases hsame.directories _ hdir with hold | hmade
    · have hfile : later.tree.isFile (recordAt c.around.directory c.plan.workdir) = true :=
        isFile_iff.2 ⟨f, hgave.record_later hkept⟩
      rcases hgone (recordAt c.around.directory c.plan.workdir) with heq | ⟨-, -, hnone⟩
      · exact not_isFile_of_isDirectory (isDirectory_congr heq ▸ hold) hfile
      · rw [isDirectory_iff, hnone] at hold
        cases hold
    · exact hgave.takes.free hmade

end Again

/-- A call that is made once more gives the same units, when the units are as they were left and the
toolchain does what it did. It takes away none but units that were written before. -/
theorem Gave.again (hgave : c.Gave v units f) (hkept : c.KeepsUnits v later)
    (hfirst : c.WritesOnlyUnits) (hcode : (c.again later).WritesOnlyUnits)
    (hrepeats : c.Repeats later) :
    ∃ v' f', (c.again later).Gave v' units f' ∧ c.SameCode v v' ∧
      FilesGone (fun q => lastLetter q = some 'l') later v' := by
  obtain ⟨before, hbefore⟩ := hgave.cleared
  have hwritten := hfirst before v hbefore
  obtain ⟨before', v', hbefore', hgone⟩ := hgave.exists_beforeCode hkept hwritten.wellFormed
  have hsame := hrepeats _ _ _ _ hbefore hbefore'
  obtain ⟨f', hgave'⟩ := gave_of_takes (c := c.again later) hcode hkept.wellFormed
    hkept.directory hbefore' (hsame.ended.trans hgave.ended)
    (hgave.takes_again hkept hwritten hcode hsame hbefore' hgone)
  have hways : unitWays (c.treeFrom v') (goalOf c.around.directory c.plan.workdir) =
      unitWays (c.treeFrom v) (goalOf c.around.directory c.plan.workdir) :=
    unitWays_congr fun way hunit => Bool.eq_iff_iff.2
      (hgave.isOccupied_again hkept hwritten hcode hsame hbefore' hgone hunit)
  refine ⟨v', f', ?_, hsame, hgone.mono ?_⟩
  · rw [hgave.units_eq, ← hways]
    exact hgave'
  · rintro q ⟨way, hway, -, rfl⟩
    obtain ⟨hunit, -⟩ := mem_unitWays.1 (List.mem_of_mem_filter hway)
    rw [lastLetter_append _ hunit.1]
    exact lastLetter_of_isUnitWay hunit

end Call

end StagedBuild.Units
