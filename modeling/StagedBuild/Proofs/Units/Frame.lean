import StagedBuild.Proofs.Action.Spares
import StagedBuild.Proofs.Build.Places
import StagedBuild.Proofs.Units.Calls

/-!
What code generation touches, however it ends: recorded units that go away, units that the toolchain
writes, and the record itself.
-/

namespace StagedBuild.Units

open Action FileTree Disk

variable {around : Surroundings} {w w' : World} {workdir : Path} {touched : Location → Prop}
  {base : Location} {t t' : FileTree}

/-- A toolchain writes units below a directory and makes directories there, and does nothing else.
-/
structure WritesUnits (base : Location) (t t' : FileTree) : Prop where
  wellFormed : t'.WellFormed
  changes : ∀ q, t'.node? q = t.node? q ∨
    base <+: q ∧ t.node? q = none ∧ t'.node? q = some .directory ∨
    (∃ way, IsUnitWay way ∧ q = base ++ way) ∧ ¬ t.isDirectory q = true ∧ Rewrote t t' q

namespace WritesUnits

theorem isDirectory (h : WritesUnits base t t') {q : Location} (hq : t.isDirectory q = true) :
    t'.isDirectory q = true := by
  rcases h.changes q with heq | ⟨-, hnone, -⟩ | ⟨-, hnot, -⟩
  · exact isDirectory_congr heq ▸ hq
  · rw [isDirectory_iff.1 hq] at hnone
    cases hnone
  · exact absurd hq hnot

theorem spares (h : WritesUnits base t t')
    (hwritten : ∀ way, IsUnitWay way → Rewrote t t' (base ++ way) → touched (base ++ way)) :
    Spares touched t t' := by
  intro q hq
  rcases h.changes q with heq | ⟨-, hnew⟩ | ⟨⟨way, hunit, rfl⟩, -, hrewrote⟩
  · exact .inl heq
  · exact .inr hnew
  · exact absurd (hwritten way hunit hrewrote) hq

end WritesUnits

theorem FilesGone.sparing {places : Location → Prop} (h : FilesGone places w w')
    (hplaces : ∀ q, places q → w.tree.isFile q = true → touched q) : Sparing touched w w' :=
  fun q hq => .inl ((h q).resolve_right fun hgone => hq (hplaces q hgone.2.1 hgone.1))

theorem of_perform_readRecord {us : List Path}
    (h : perform (readRecord workdir) around w = (.ok us, w')) :
    us = [] ∨ us = (namesIn around.nesting (w.tree.node? (recordAt around.directory workdir))).map
      fun (name : String) => workdir / name := by
  unfold readRecord at h
  obtain ⟨ended, v, hended, hrest⟩ := perform_bind_eq_ok.1 h
  rw [perform_outcome] at hended
  obtain ⟨hend, hv⟩ := Prod.mk.inj hended
  obtain rfl := Except.ok.inj hend
  rcases hread : perform (readRecordValue (workdir / recordName)) around w with ⟨fault | value, u⟩
  · rw [hread] at hrest
    exact .inl ((perform_withoutRecord workdir fault around v).2 us (congrArg Prod.fst hrest))
  · rw [hread] at hrest
    obtain ⟨names, v₁, hnames, hend⟩ := perform_bind_eq_ok.1 hrest
    rw [perform_ofExcept_id] at hnames
    obtain ⟨hrecorded, -⟩ := Prod.mk.inj hnames
    cases hend
    -- a value was read, so the file is there and holds it
    obtain ⟨text, u₁, htext, hvalue⟩ := perform_bind_eq_ok.1 hread
    obtain ⟨bytes, u₂, hbytes, hdecode⟩ := perform_bind_eq_ok.1 htext
    rw [perform_readBytes] at hbytes
    obtain ⟨hfile, -⟩ := Prod.mk.inj hbytes
    obtain ⟨-, -, f, hnode, hf⟩ := bytesAt_eq_ok_iff.1 hfile
    rw [goalOf_child _ _ isEntryName_recordName] at hnode
    rcases hdecoded : Text.decodeFile? bytes with _ | found
    · rw [hdecoded] at hdecode
      cases hdecode
    · rw [hdecoded] at hdecode
      cases hdecode
      rw [Json.perform_ofText] at hvalue
      rcases hparse : Json.parse around.nesting text with e | parsed
      · rw [hparse, mapError_error] at hvalue
        cases hvalue
      · rw [hparse, mapError_ok] at hvalue
        cases hvalue
        refine .inr ?_
        rw [recordAt, hnode]
        simp only [namesIn, hf, hdecoded, hparse, hrecorded, Except.toOption, Option.getD_some]

theorem lastLetter_of_placesOf {cwd : Location} {us : List Path} {q : Location}
    (h : placesOf cwd us q) : lastLetter q = some 'l' := by
  obtain ⟨u, -, hsuffix, rfl⟩ := h
  exact lastLetter_goalOf cwd hsuffix (by decide) (by decide)

theorem sparing_readRecord (touched : Location → Prop) (workdir : Path) :
    Keeps around (Sparing touched) (readRecord workdir) := by
  refine (Keeps.of_readOnly (readOnly_readRecordValue _)).outcome.bind fun ended => ?_
  split
  · exact (Keeps.of_readOnly (ReadOnly.ofExcept _ _)).bind fun _ => Keeps.pure _
  · exact Keeps.ite (fun _ => Keeps.pure _) fun _ =>
      Keeps.ite (fun _ => (sparing_note touched _).bind fun _ => Keeps.pure _)
        fun _ => Keeps.throw _

theorem sparing_removeRecorded
    (hplaces : ∀ us v, perform (readRecord workdir) around w = (.ok us, v) →
      ∀ q, placesOf around.directory us q → w.tree.isFile q = true → touched q) :
    Sparing touched w (perform (removeRecorded workdir) around w).2 := by
  rw [removeRecorded_eq]
  refine Keeps.bind_at (sparing_readRecord touched workdir w) fun us v hread => ?_
  have hread' : Sparing (fun _ => False) w v := (sparing_readRecord _ workdir).of_perform hread
  refine (keeps_removeUnits around us v).sparing fun q hq hfile => hplaces us v hread q hq ?_
  obtain ⟨f, hf⟩ := isFile_iff.1 hfile
  exact isFile_iff.2 ⟨f, hread'.node?_of_file id hf⟩

theorem sparing_beforeCode {plan : Plan}
    (hplaces : ∀ v us v', DirectoriesAdded (OnTheWay around.directory plan.workdir) w v →
      perform (readRecord plan.workdir) around v = (.ok us, v') →
      ∀ q, placesOf around.directory us q → v.tree.isFile q = true → touched q) :
    Sparing touched w (perform (beforeCode plan) around w).2 := by
  refine Keeps.bind_at (sparing_makeDirectories touched plan.workdir w) fun _ v hmake => ?_
  have hadded := (adds_makeDirectories around plan.workdir).of_perform hmake
  refine Keeps.bind_at (sparing_removeRecorded fun us v' => hplaces v us v' hadded)
    fun _ v₁ _ => ?_
  exact Keeps.of_readOnly (readOnly_stamps plan.workdir) v₁

theorem sparing_afterCode {plan : Plan} (before : List (Path × Nat))
    (hrecord : touched (recordAt around.directory plan.workdir)) :
    Keeps around (Sparing touched) (afterCode plan before) := by
  have hplace : touched (goalOf around.directory (plan.workdir / recordName)) := by
    rw [goalOf_child _ _ isEntryName_recordName]
    exact hrecord
  have hwrite : ∀ units, Keeps around (Sparing touched) (writeRecord plan.workdir units) :=
    fun units => (Keeps.of_readOnly (ReadOnly.ofExcept _ _)).bind fun names =>
      (sparing_writeBytes hplace _).bind fun _ => Keeps.pure _
  exact (Keeps.of_readOnly (readOnly_stamps plan.workdir)).bind fun stamped =>
    (hwrite _).bind fun _ => Keeps.pure _

theorem unitWays_congr
    (h : ∀ way, IsUnitWay way → t.isOccupied (base ++ way) = t'.isOccupied (base ++ way)) :
    unitWays t base = unitWays t' base := by
  have hordered : ∀ s : FileTree, (unitWays s base).Pairwise fun a b => compare a b = .lt :=
    fun s => (List.pairwise_map.2 (below_pairwise s base)).filter _
  have hnodup : ∀ s : FileTree, (unitWays s base).Nodup := fun s => (below_nodup s base).filter _
  have hmem : ∀ way, way ∈ unitWays t base ↔ way ∈ unitWays t' base := by
    intro way
    rw [mem_unitWays, mem_unitWays]
    exact and_congr_right fun hunit => by rw [h way hunit]
  refine ((List.perm_ext_iff_of_nodup (hnodup t) (hnodup t')).2 hmem).eq_of_pairwise
    (fun a b _ _ hab hba => ?_) (hordered t) (hordered t')
  rw [show compare a b = (compare b a).swap from Std.OrientedCmp.eq_swap, hba] at hab
  cases hab

theorem unitWays_nodup (t : FileTree) (base : Location) : (unitWays t base).Nodup :=
  (below_nodup t base).filter _

theorem leads_of_beforeCode {plan : Plan} {before : List (Path × Nat)} (hwf : w.tree.WellFormed)
    (hcwd : w.tree.isDirectory around.directory = true)
    (h : perform (beforeCode plan) around w = (.ok before, w')) :
    LeadsToDirectory plan.workdir w'.tree around.directory := by
  obtain ⟨_, v, hmake, hrest⟩ := perform_bind_eq_ok.1 h
  obtain ⟨_, v', hremove, hstamps⟩ := perform_bind_eq_ok.1 hrest
  obtain ⟨hwf', hdirs⟩ :=
    (sound_makeDirectories (startsFrom_self _ plan.workdir)).of_perform hmake hwf hcwd
  have hdirs' := ((sound_removeRecorded around plan.workdir).of_perform hremove hwf'
    (hdirs _ hcwd)).2
  obtain rfl : w' = v' := by
    have hreadOnly := readOnly_stamps plan.workdir around v'
    rwa [hstamps] at hreadOnly
  exact (leads_of_makeDirectories hmake).mono hdirs'

/-- The record lists only units that may be touched, and directories. -/
def RecordsOnly (workdir : Path) (cwd : Location) (touched : Location → Prop) (t : FileTree) :
    Prop :=
  ∀ depth, ∀ name ∈ namesIn (depth + 1) (t.node? (recordAt cwd workdir)),
    (workdir / name).suffix = suffix →
    touched (goalOf cwd (workdir / name)) ∨ t.isDirectory (goalOf cwd (workdir / name)) = true

namespace RecordsOnly

variable {cwd : Location}

theorem of_not_isFile (h : t.isFile (recordAt cwd workdir) = false) :
    RecordsOnly workdir cwd touched t := by
  intro depth name hname
  rcases hnode : t.node? (recordAt cwd workdir) with _ | _ | f
  · rw [hnode] at hname
    cases hname
  · rw [hnode] at hname
    cases hname
  · rw [isFile_iff.2 ⟨f, hnode⟩] at h
    cases h

theorem of_spares {more : Location → Prop} (h : RecordsOnly workdir cwd touched t)
    (hspares : Spares more t t') (hrecord : ¬ more (recordAt cwd workdir))
    (hdirs : ∀ loc, ¬ touched loc → t.isDirectory loc = true → t'.isDirectory loc = true) :
    RecordsOnly workdir cwd touched t' := by
  intro depth name hname hsuffix
  have hlisted : name ∈ namesIn (depth + 1) (t.node? (recordAt cwd workdir)) := by
    rcases hspares _ hrecord with heq | ⟨-, hdir⟩
    · rwa [heq] at hname
    · rw [hdir] at hname
      cases hname
  by_cases htouched : touched (goalOf cwd (workdir / name))
  · exact .inl htouched
  · exact .inr (hdirs _ htouched ((h depth name hlisted hsuffix).resolve_left htouched))

theorem congr_directory {other : Location} (habsolute : workdir.isAbsolute = true)
    (h : RecordsOnly workdir cwd touched t) : RecordsOnly workdir other touched t := by
  have hname : ∀ name : String, goalOf other (workdir / name) = goalOf cwd (workdir / name) := by
    intro name
    have hjoined : (workdir / name).isAbsolute = true := isAbsolute_join habsolute _
    rw [goalOf_of_absolute hjoined other, goalOf_of_absolute hjoined cwd]
  intro depth name hlisted hsuffix
  rw [recordAt, goalOf_of_absolute habsolute, ← goalOf_of_absolute habsolute cwd] at hlisted
  rw [hname]
  exact h depth name hlisted hsuffix

end RecordsOnly

theorem lastLetter_recordAt (cwd : Location) (workdir : Path) :
    lastLetter (recordAt cwd workdir) ≠ some 'l' := by
  rw [recordAt, lastLetter_concat]
  decide

theorem sparing_beforeCode_units (around : Surroundings) (plan : Plan) :
    Keeps around (Sparing (lastLetter · = some 'l')) (beforeCode plan) := fun _ =>
  sparing_beforeCode fun _ _ _ _ _ _ hq _ => lastLetter_of_placesOf hq

theorem stamped_of_beforeCode {plan : Plan} {before : List (Path × Nat)}
    (hwf : w.tree.WellFormed) (hcwd : w.tree.isDirectory around.directory = true)
    (h : perform (beforeCode plan) around w = (.ok before, w')) :
    before = (unitWays w'.tree (goalOf around.directory plan.workdir)).map fun way =>
      (plan.workdir.descend way,
        stampAt w'.tree (goalOf around.directory plan.workdir ++ way)) := by
  have hleads := leads_of_beforeCode hwf hcwd h
  have hwf' := (sound_beforeCode around plan).of_perform h hwf hcwd
  obtain ⟨_, v, -, hrest⟩ := perform_bind_eq_ok.1 h
  obtain ⟨_, v', -, hstamps⟩ := perform_bind_eq_ok.1 hrest
  obtain rfl : w' = v' := by
    have hreadOnly := readOnly_stamps plan.workdir around v'
    rwa [hstamps] at hreadOnly
  exact (perform_stamps_ok hwf'.1 hleads hstamps).2.1

theorem perform_writeRecord_error {units : List Path} {fault : Fault}
    (h : perform (writeRecord workdir units) around w = (.error fault, w')) : w' = w := by
  unfold writeRecord at h
  rcases hnames : relativeNames workdir units with e | names
  · rw [hnames, perform_bind_error (perform_ofExcept_id _ _ _)] at h
    cases h
    rfl
  · rw [hnames, perform_bind_ok (perform_ofExcept_id _ _ _)] at h
    rcases hwrite : perform (writeText (workdir / recordName) (recordText names)) around w with
      ⟨e | _, v⟩
    · rw [perform_bind_error hwrite] at h
      cases h
      exact perform_writeBytes_error hwrite
    · rw [perform_bind_ok hwrite] at h
      cases h

theorem perform_afterCode_error {plan : Plan} {before : List (Path × Nat)} {fault : Fault}
    (h : perform (afterCode plan before) around w = (.error fault, w')) : w' = w := by
  have hreadOnly := readOnly_stamps plan.workdir around w
  unfold afterCode at h
  rcases hstamps : perform (stamps plan.workdir) around w with ⟨e | after, v⟩
  · rw [hstamps] at hreadOnly
    rw [perform_bind_error hstamps] at h
    cases h
    exact hreadOnly
  · rw [hstamps] at hreadOnly
    obtain rfl : v = w := hreadOnly
    rw [perform_bind_ok hstamps] at h
    dsimp only at h
    rw [perform_bind] at h
    split at h
    · cases h
    · rename_i hwrite
      cases h
      exact perform_writeRecord_error hwrite

namespace Call

variable {c : Call}

/-- The toolchain of a call writes units in the work directory, and does nothing else. -/
def WritesOnlyUnits (c : Call) : Prop :=
  ∀ before v, perform (beforeCode c.plan) c.around c.before = (.ok before, v) →
    WritesUnits (goalOf c.around.directory c.plan.workdir) v.tree (c.treeFrom v)

theorem sound_of_writesOnlyUnits (hcode : c.WritesOnlyUnits) (hwf : c.before.tree.WellFormed)
    (hcwd : c.before.tree.isDirectory c.around.directory = true) :
    c.after.tree.WellFormed ∧
      ∀ loc, c.before.tree.isDirectory loc = true → c.after.tree.isDirectory loc = true :=
  sound_of_code (fun before v h =>
    ⟨(hcode before v h).wellFormed, fun _ hloc => (hcode before v h).isDirectory hloc⟩) hwf hcwd

/-- A call touches recorded units, what the toolchain writes, and the record. -/
theorem sparing (hcode : c.WritesOnlyUnits)
    (hplaces : ∀ v us v', DirectoriesAdded (OnTheWay c.around.directory c.plan.workdir) c.before v →
      perform (readRecord c.plan.workdir) c.around v = (.ok us, v') →
      ∀ q, placesOf c.around.directory us q → v.tree.isFile q = true → touched q)
    (hwritten : ∀ way, IsUnitWay way → c.Wrote (goalOf c.around.directory c.plan.workdir ++ way) →
      touched (goalOf c.around.directory c.plan.workdir ++ way))
    (hrecord : touched (recordAt c.around.directory c.plan.workdir)) :
    Sparing touched c.before c.after := by
  rw [Call.after, generate_eq]
  refine Keeps.bind_at (sparing_beforeCode hplaces) fun before v hbefore => ?_
  rw [perform_bind, perform_codeGeneration]
  have hspares : Spares touched v.tree (c.treeFrom v) :=
    (hcode before v hbefore).spares fun way hunit hrewrote =>
      hwritten way hunit ⟨before, v, hbefore, hrewrote⟩
  rcases (c.tools.generate c.plan c.defns (v.calling (.generate c.defns))).2 with fault | _
  · exact hspares
  · exact hspares.trans (sparing_afterCode before hrecord _)

theorem places_of_recordsOnly
    (h : RecordsOnly c.plan.workdir c.around.directory touched c.before.tree) (v : World)
    (us : List Path) (v' : World)
    (hadded : DirectoriesAdded (OnTheWay c.around.directory c.plan.workdir) c.before v)
    (hread : perform (readRecord c.plan.workdir) c.around v = (.ok us, v')) (q : Location)
    (hq : placesOf c.around.directory us q) (hfile : v.tree.isFile q = true) : touched q := by
  have hspares : Spares (fun _ => False) c.before.tree v.tree := .of_directoriesAdded hadded
  obtain ⟨u, hu, hsuffix, rfl⟩ := hq
  rcases of_perform_readRecord hread with rfl | rfl
  · cases hu
  · obtain ⟨name, hname, rfl⟩ := List.mem_map.1 hu
    refine ((h.of_spares hspares id fun loc _ hloc => hspares.isDirectory id hloc)
      (c.around.stackRoom + 1) name hname hsuffix).resolve_right fun hdir => ?_
    exact not_isFile_of_isDirectory hdir hfile

/-- A call that succeeds records the units that the toolchain wrote, and directories. -/
theorem recordsOnly_of_ok {before : List (Path × Nat)} {v : World} {units : List Path}
    (hcode : c.WritesOnlyUnits)
    (hwf : c.before.tree.WellFormed)
    (hcwd : c.before.tree.isDirectory c.around.directory = true)
    (hbefore : perform (beforeCode c.plan) c.around c.before = (.ok before, v))
    (hafter : perform (afterCode c.plan before) c.around
      ⟨c.treeFrom v, .changed (c.treeFrom v) :: (v.calling (.generate c.defns)).history⟩ =
        (.ok units, c.after))
    (hfits : RecordFits c.plan.workdir)
    (hwritten : ∀ way, IsUnitWay way → c.Wrote (goalOf c.around.directory c.plan.workdir ++ way) →
      touched (goalOf c.around.directory c.plan.workdir ++ way)) :
    RecordsOnly c.plan.workdir c.around.directory touched c.after.tree := by
  have hcoded := hcode before v hbefore
  have hsound := sound_beforeCode c.around c.plan c.before hwf hcwd
  rw [hbefore] at hsound
  have hleads : LeadsToDirectory c.plan.workdir (c.treeFrom v) c.around.directory :=
    (leads_of_beforeCode hwf hcwd hbefore).mono fun _ hloc => hcoded.isDirectory hloc
  rcases perform_afterCode (w := ⟨c.treeFrom v, .changed (c.treeFrom v) ::
      (v.calling (.generate c.defns)).history⟩) hcoded.wellFormed hleads hfits before with
    ⟨fault, hfault⟩ | ⟨w', f, hok, hnames, hnodes⟩
  · cases hfault.symm.trans hafter
  · obtain ⟨-, rfl⟩ := Prod.mk.inj (hok.symm.trans hafter)
    intro depth name hname _
    rw [hnodes, if_pos rfl, hnames depth] at hname
    obtain ⟨way, hway, rfl⟩ := List.mem_map.1 hname
    have hunit := (mem_newWays.1 hway).1.1
    obtain ⟨hne, hentries⟩ := newWays_entryNames hcoded.wellFormed way hway
    rw [Path.div_wayText _ (fun s hs => isStep_of_isEntryName (hentries s hs)) hne,
      goalOf_descend _ _ hentries]
    have hsame : c.after.tree.node? (goalOf c.around.directory c.plan.workdir ++ way) =
        (c.treeFrom v).node? (goalOf c.around.directory c.plan.workdir ++ way) := by
      rw [hnodes, if_neg (ne_record_of_isUnitWay hunit)]
    by_cases hdir : (c.treeFrom v).isDirectory
      (goalOf c.around.directory c.plan.workdir ++ way) = true
    · exact .inr ((isDirectory_congr hsame).trans hdir)
    · rw [stamped_of_beforeCode hwf hcwd hbefore] at hway
      exact .inl (hwritten way hunit ⟨before, v, hbefore,
        (mem_newWays_iff_rewrote hsound.1 hcoded.wellFormed hunit hdir).1 hway⟩)

/-- However a call ends, the record lists only what may be touched, if that was so before and if the
toolchain may touch what it writes. -/
theorem recordsOnly_after (hcode : c.WritesOnlyUnits) (hwf : c.before.tree.WellFormed)
    (hcwd : c.before.tree.isDirectory c.around.directory = true)
    (h : RecordsOnly c.plan.workdir c.around.directory touched c.before.tree)
    (hwritten : ∀ way, IsUnitWay way → c.Wrote (goalOf c.around.directory c.plan.workdir ++ way) →
      touched (goalOf c.around.directory c.plan.workdir ++ way)) :
    RecordsOnly c.plan.workdir c.around.directory touched c.after.tree := by
  have hrecord := lastLetter_recordAt c.around.directory c.plan.workdir
  have hspares := sparing_beforeCode_units c.around c.plan c.before
  have hsound := sound_beforeCode c.around c.plan c.before hwf hcwd
  have hgenerate : perform (generate c.plan c.tools c.defns) c.around c.before =
      (c.outcome, c.after) := rfl
  rw [generate_eq] at hgenerate
  rcases hbefore : perform (beforeCode c.plan) c.around c.before with ⟨fault | before, v⟩
  · rw [hbefore] at hspares hsound
    rw [perform_bind_error hbefore] at hgenerate
    obtain ⟨-, rfl⟩ := Prod.mk.inj hgenerate
    exact h.of_spares hspares hrecord fun loc _ => hsound.2 loc
  · rw [hbefore] at hspares hsound
    have hleft := h.of_spares hspares hrecord fun loc _ => hsound.2 loc
    have hcoded := hcode before v hbefore
    have hspares' : Spares (lastLetter · = some 'l') v.tree (c.treeFrom v) :=
      hcoded.spares fun way hunit _ => by
        rw [lastLetter_append _ hunit.1]
        exact lastLetter_of_isUnitWay hunit
    have hleft' := hleft.of_spares hspares' hrecord fun loc _ => hcoded.isDirectory
    have hcalled := perform_codeGeneration c.plan c.tools c.defns c.around v
    rw [perform_bind_ok hbefore] at hgenerate
    rcases hresult : (c.tools.generate c.plan c.defns (v.calling (.generate c.defns))).2 with
      fault | _
    · rw [hresult] at hcalled
      rw [perform_bind_error hcalled] at hgenerate
      obtain ⟨-, hafter⟩ := Prod.mk.inj hgenerate
      rw [← hafter]
      exact hleft'
    · rw [hresult] at hcalled
      rw [perform_bind_ok hcalled] at hgenerate
      rcases hrecorded : c.outcome with fault | units
      · rw [hrecorded] at hgenerate
        rw [perform_afterCode_error hgenerate]
        exact hleft'
      · have hfits := recordFits_of_generate (show perform (generate c.plan c.tools c.defns)
          c.around c.before = (.ok units, c.after) from Prod.ext hrecorded rfl)
        rw [hrecorded] at hgenerate
        exact recordsOnly_of_ok hcode hwf hcwd hbefore hgenerate hfits hwritten

theorem units_of_ok {units : List Path} (hcode : c.WritesOnlyUnits)
    (hwf : c.before.tree.WellFormed)
    (hcwd : c.before.tree.isDirectory c.around.directory = true) (hok : c.outcome = .ok units) :
    LeadsToDirectory c.plan.workdir c.after.tree c.around.directory ∧
      units = (unitWays c.after.tree (goalOf c.around.directory c.plan.workdir)).map
        c.plan.workdir.descend := by
  have hgenerate : perform (generate c.plan c.tools c.defns) c.around c.before =
      (.ok units, c.after) := Prod.ext hok rfl
  have hfits := recordFits_of_generate hgenerate
  rw [generate_eq] at hgenerate
  obtain ⟨before, v, hbefore, hcalling⟩ := perform_bind_eq_ok.1 hgenerate
  obtain ⟨_, v₁, hcalled, hafter⟩ := perform_bind_eq_ok.1 hcalling
  have hsound := sound_beforeCode c.around c.plan c.before hwf hcwd
  rw [hbefore] at hsound
  have hwritten := hcode before v hbefore
  have htree : c.treeFrom v = v₁.tree := by
    rw [perform_codeGeneration] at hcalled
    exact congrArg World.tree (Prod.mk.inj hcalled).2
  rw [htree] at hwritten
  have hleads : LeadsToDirectory c.plan.workdir v₁.tree c.around.directory :=
    (leads_of_beforeCode hwf hcwd hbefore).mono fun _ hloc => hwritten.isDirectory hloc
  have hdirs := (sound_afterCode c.around c.plan before).of_perform hafter hwritten.wellFormed
    (hwritten.isDirectory (hsound.2 _ hcwd))
  refine ⟨hleads.mono hdirs.2, ?_⟩
  rcases perform_afterCode hwritten.wellFormed hleads hfits before with
    ⟨fault, hfault⟩ | ⟨w', f, hok, -, hnodes⟩
  · rw [hfault] at hafter
    cases hafter
  · rw [hok] at hafter
    obtain ⟨hunits, hv⟩ := Prod.mk.inj hafter
    rw [← Except.ok.inj hunits, ← hv]
    refine congrArg _ (unitWays_congr fun way hunit => isOccupied_congr ?_)
    rw [hnodes, if_neg (ne_record_of_isUnitWay hunit)]

end Call

end StagedBuild.Units
