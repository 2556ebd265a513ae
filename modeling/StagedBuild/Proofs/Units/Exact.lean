import StagedBuild.Proofs.Units.Found
import StagedBuild.Proofs.Units.Stale

/-!
The units of a work directory and their record, exactly. Whatever stands on the disk, the units are
all entries below the work directory that are named like units, directories among them, and whatever
the toolchain did to the disk, the record lists those of them that have a new stamp. For a file this
means that the toolchain wrote it.
-/

namespace StagedBuild

namespace Path

variable {p : Path} {names : List String}

theorem key_descend (h : ∀ s ∈ names, isStep s = true) :
    (p.descend names).key = p.key ++ names := by
  rw [key, key, anchor_descend p h, steps_descend p h]
  split <;> simp

end Path

namespace Units

open Action FileTree Disk

variable {around : Surroundings} {w w' : World} {workdir : Path} {cwd : Location}
  {t t' : FileTree} {ways : List Location}

/-- The ways to everything below a work directory that is named like a unit, file or directory, each
once and ordered by path. -/
structure IsExactListing (workdir : Path) (cwd : Location) (t : FileTree)
    (ways : List Location) : Prop where
  inOrder : (ways.map workdir.descend).Pairwise fun u v => compare u.key v.key = .lt
  nodup : (ways.map workdir.descend).Nodup
  mem_iff : ∀ way, way ∈ ways ↔
    IsUnitWay way ∧ t.isOccupied (goalOf cwd workdir ++ way) = true

theorem unitWays_pairwise (t : FileTree) (base : Location) :
    (unitWays t base).Pairwise fun a b => compare a b = .lt :=
  (List.pairwise_map.2 (below_pairwise t base)).filter _

theorem isExactListing_unitWays (ht : t.WellFormed) (workdir : Path) (cwd : Location) :
    IsExactListing workdir cwd t (unitWays t (goalOf cwd workdir)) := by
  have hsteps : ∀ way ∈ unitWays t (goalOf cwd workdir), ∀ s ∈ way, isStep s = true :=
    fun way hway s hs =>
      isStep_of_isEntryName (entryNames_of_isOccupied ht (mem_unitWays.1 hway).2 s hs)
  refine ⟨?_, ?_, fun way => mem_unitWays⟩
  · rw [List.pairwise_map]
    refine (unitWays_pairwise t _).imp_of_mem fun ha hb hlt => ?_
    rw [Path.key_descend (hsteps _ ha), Path.key_descend (hsteps _ hb), compare_append_left]
    exact hlt
  · exact (unitWays_nodup t _).map_on fun a ha b hb heq =>
      Path.descend_injective (hsteps a ha) (hsteps b hb) heq

/-- The disk takes a record of its units: the work directory is there, no path is too long to be
asked about, and no directory stands in the place of the record. -/
structure TakesRecord (workdir : Path) (cwd : Location) (t : FileTree) : Prop where
  leads : LeadsToDirectory workdir t cwd
  reachable : ∀ way, IsUnitWay way → t.isOccupied (goalOf cwd workdir ++ way) = true →
    (workdir.descend way).text.utf8ByteSize ≤ pathLimit
  fits : RecordFits workdir
  free : ¬ t.isDirectory (recordAt cwd workdir) = true

theorem perform_stamp {p : Path} {loc : Location} (hask : isAskable p = true)
    (hloc : w.tree.locate around.directory p = .ok loc)
    (hocc : w.tree.isOccupied loc = true) :
    perform (Disk.stamp p) around w = (.ok (stampAt w.tree loc), w) := by
  obtain ⟨node, hnode⟩ := isOccupied_iff.1 hocc
  rw [Disk.stamp, perform_ask, if_pos hask, lookup_eq_ok_iff.2 ⟨hloc, hnode⟩]
  rfl

theorem perform_stamps (hw : w.tree.WellFormed)
    (hdir : LeadsToDirectory workdir w.tree around.directory)
    (hreach : ∀ way, IsUnitWay way →
      w.tree.isOccupied (goalOf around.directory workdir ++ way) = true →
      (workdir.descend way).text.utf8ByteSize ≤ pathLimit) :
    perform (stamps workdir) around w =
      (.ok ((unitWays w.tree (goalOf around.directory workdir)).map fun way =>
        (workdir.descend way, stampAt w.tree (goalOf around.directory workdir ++ way))), w) := by
  rw [stamps, perform_bind_ok (perform_find hw hdir)]
  have hmem : ∀ way ∈ unitWays w.tree (goalOf around.directory workdir),
      IsUnitWay way ∧ w.tree.isOccupied (goalOf around.directory workdir ++ way) = true :=
    fun way hway => mem_unitWays.1 hway
  generalize unitWays w.tree (goalOf around.directory workdir) = ways at hmem
  induction ways with
  | nil => rfl
  | cons way ways ih =>
      obtain ⟨hunit, hocc⟩ := hmem way (by simp)
      have hnames := entryNames_of_isOccupied hw hocc
      have hloc := locate_descend hw hdir.locate hocc (hreach way hunit hocc)
      have hfirst := perform_stamp (isAskable_descend hdir.isAskable hnames) hloc hocc
      have hrest := ih fun x hx => hmem x (List.mem_cons_of_mem _ hx)
      rw [List.map_cons, List.mapM_cons,
        perform_bind_ok (perform_bind_ok hfirst), perform_bind_ok hrest]
      rfl

/-- An entry is new when its stamp is not the one from before. -/
def IsNew (t t' : FileTree) (loc : Location) : Prop :=
  t'.stamp? loc ≠ t.stamp? loc

instance (t t' : FileTree) (loc : Location) : Decidable (IsNew t t' loc) :=
  inferInstanceAs (Decidable (_ ≠ _))

theorem isNew_iff_rewrote {loc : Location} (h : t'.isFile loc = true) :
    IsNew t t' loc ↔ Rewrote t t' loc :=
  ⟨fun hnew => ⟨h, hnew⟩, fun hrewrote => hrewrote.2⟩

/-- The record lists these ways, in this order. -/
def IsRecordOf (ways : List Location) (f : File) : Prop :=
  f.bytes = Text.encode (recordText (ways.map Path.wayText)) ∧
    Lists (some (.file f)) (ways.map Path.wayText)

theorem newWays_stamps (ht : t.WellFormed) (ht' : t'.WellFormed) (base : Location) :
    newWays ((unitWays t base).map fun way =>
        (workdir.descend way, stampAt t (base ++ way))) workdir t' base =
      (unitWays t' base).filter fun way => IsNew t t' (base ++ way) := by
  refine List.filter_congr fun way hway => decide_eq_decide.2 ?_
  obtain ⟨hunit, hocc⟩ := mem_unitWays.1 hway
  have hne : base ++ way ≠ [] := by simp [hunit.1]
  rw [lookup_stamps ht (entryNames_of_isOccupied ht' hocc) hunit,
    ← (isOccupied_iff_stamp hne).1 hocc, IsNew]
  exact ne_comm

theorem TakesRecord.perform_afterCode {plan : Plan} (hw : w.tree.WellFormed)
    (h : TakesRecord plan.workdir around.directory w.tree) (before : List (Path × Nat)) :
    ∃ w' f, perform (afterCode plan before) around w =
        (.ok ((unitWays w.tree (goalOf around.directory plan.workdir)).map
          plan.workdir.descend), w') ∧
      IsRecordOf (newWays before plan.workdir w.tree (goalOf around.directory plan.workdir)) f ∧
      ∀ q, w'.tree.node? q =
        if q = recordAt around.directory plan.workdir then some (.file f)
        else w.tree.node? q := by
  have hways : ∀ way ∈ newWays before plan.workdir w.tree (goalOf around.directory plan.workdir),
      way ≠ [] ∧ ∀ s ∈ way, isStep s = true := fun way hway =>
    (newWays_entryNames hw way hway).imp id fun hnames s hs => isStep_of_isEntryName (hnames s hs)
  unfold afterCode
  rw [perform_bind_ok (perform_stamps hw h.leads h.reachable)]
  simp only [List.filter_map, List.map_map]
  change ∃ w' f, perform (writeRecord plan.workdir ((newWays before plan.workdir w.tree
      (goalOf around.directory plan.workdir)).map plan.workdir.descend) >>= _) around w = _ ∧ _
  unfold writeRecord
  rw [relativeNames_descend hways]
  rcases perform_writeBytes (isAskable_record h.leads) (locate_record h.leads h.fits)
    (Text.encode (recordText ((newWays before plan.workdir w.tree
      (goalOf around.directory plan.workdir)).map Path.wayText))) with
    ⟨hdir, -⟩ | ⟨-, w', f, hok, hf, hnodes⟩
  · exact absurd hdir h.free
  · refine ⟨w', f, ?_, ⟨hf, lists_recordText hf⟩, hnodes⟩
    exact perform_bind_ok (perform_bind_ok hok)

theorem TakesRecord.of_perform_afterCode {plan : Plan} {before : List (Path × Nat)}
    {units : List Path} (hw : w.tree.WellFormed)
    (h : perform (afterCode plan before) around w = (.ok units, w')) :
    TakesRecord plan.workdir around.directory w.tree := by
  obtain ⟨stamped, v, hstamps, hrest⟩ := perform_bind_eq_ok.1 h
  obtain rfl : v = w := by
    have hreadOnly := readOnly_stamps plan.workdir around w
    rwa [hstamps] at hreadOnly
  obtain ⟨record, v₁, hrecord, -⟩ := perform_bind_eq_ok.1 hrest
  obtain ⟨hleads, hfits, hfree⟩ := of_perform_writeRecord hrecord
  obtain ⟨-, -, hanswers⟩ := perform_stamps_ok hw hleads hstamps
  refine ⟨hleads, fun way hunit hocc => ?_, hfits, hfree⟩
  obtain ⟨node, hanswer⟩ := hanswers way (mem_unitWays.2 ⟨hunit, hocc⟩)
  exact (locate_eq_ok_iff.1 (answerAt_eq_some_iff.1 hanswer).2.1).2.1

namespace Call

variable {c : Call} {before : List (Path × Nat)} {v : World}

/-- The world that the toolchain leaves when it is asked for code in a world. -/
def worldFrom (c : Call) (v : World) : World :=
  ⟨c.treeFrom v, .changed (c.treeFrom v) :: (v.calling (.generate c.defns)).history⟩

theorem perform_generate_of_code
    (hbefore : perform (beforeCode c.plan) c.around c.before = (.ok before, v))
    (hcode : (c.tools.generate c.plan c.defns (v.calling (.generate c.defns))).2 = .ok ()) :
    perform (generate c.plan c.tools c.defns) c.around c.before =
      perform (afterCode c.plan before) c.around (c.worldFrom v) := by
  have hcalled := perform_codeGeneration c.plan c.tools c.defns c.around v
  rw [hcode] at hcalled
  rw [generate_eq, perform_bind_ok hbefore, perform_bind_ok hcalled]
  rfl

/-- Below a work directory everything is found that is named like a unit, in order. Once the
toolchain has succeeded, a call gives what is so named on the disk that the toolchain left, and
records what is new on it, exactly when that disk takes a record. -/
theorem gives_and_records_units (hwf : c.before.tree.WellFormed)
    (hcwd : c.before.tree.isDirectory c.around.directory = true)
    (hbefore : perform (beforeCode c.plan) c.around c.before = (.ok before, v))
    (hcode : (c.tools.generate c.plan c.defns (v.calling (.generate c.defns))).2 = .ok ())
    (hleft : (c.treeFrom v).WellFormed) :
    (∀ u : World, u.tree.WellFormed →
      LeadsToDirectory c.plan.workdir u.tree c.around.directory →
      ∃ ways, IsExactListing c.plan.workdir c.around.directory u.tree ways ∧
        perform (find c.plan.workdir) c.around u =
          (.ok (ways.map c.plan.workdir.descend), u)) ∧
    ((∃ units, c.outcome = .ok units) ↔
      TakesRecord c.plan.workdir c.around.directory (c.treeFrom v)) ∧
    ∀ units, c.outcome = .ok units →
      ∃ (ways new : List Location) (f : File),
        IsExactListing c.plan.workdir c.around.directory (c.treeFrom v) ways ∧
        units = ways.map c.plan.workdir.descend ∧
        new = ways.filter (fun way => IsNew v.tree (c.treeFrom v)
          (goalOf c.around.directory c.plan.workdir ++ way)) ∧
        (∀ way ∈ ways,
          (c.treeFrom v).isFile (goalOf c.around.directory c.plan.workdir ++ way) = true →
          (way ∈ new ↔ c.Wrote (goalOf c.around.directory c.plan.workdir ++ way))) ∧
        IsRecordOf new f ∧
        ∀ q, c.after.tree.node? q =
          if q = recordAt c.around.directory c.plan.workdir then some (.file f)
          else (c.treeFrom v).node? q := by
  have hgenerate := perform_generate_of_code hbefore hcode
  have hwf' : v.tree.WellFormed :=
    ((sound_beforeCode c.around c.plan).of_perform hbefore hwf hcwd).1
  refine ⟨fun u hu hdir => ⟨_, isExactListing_unitWays hu _ _, perform_find hu hdir⟩, ?_, ?_⟩
  · constructor
    · rintro ⟨units, hok⟩
      exact TakesRecord.of_perform_afterCode hleft (hgenerate.symm.trans (Prod.ext hok rfl))
    · intro htakes
      obtain ⟨w', f, hok, -⟩ := htakes.perform_afterCode (w := c.worldFrom v) hleft before
      exact ⟨_, congrArg Prod.fst (hgenerate.trans hok)⟩
  · intro units hunits
    have htakes := TakesRecord.of_perform_afterCode hleft
      (hgenerate.symm.trans (Prod.ext hunits rfl))
    obtain ⟨w', f, hok, hf, hnodes⟩ := htakes.perform_afterCode (w := c.worldFrom v) hleft before
    obtain ⟨hunits', hafter⟩ := Prod.mk.inj (hgenerate.trans hok)
    obtain rfl := Except.ok.inj (hunits.symm.trans hunits')
    obtain rfl : c.after = w' := hafter
    refine ⟨_, _, f, isExactListing_unitWays hleft _ _, rfl, rfl, fun way hway hfile => ?_, ?_,
      hnodes⟩
    · rw [List.mem_filter, decide_eq_true_eq, isNew_iff_rewrote hfile, wrote_iff hbefore]
      exact and_iff_right hway
    · rw [← newWays_stamps hwf' hleft, ← stamped_of_beforeCode hwf hcwd hbefore]
      exact hf

end Call

/-- A disk on which a directory below `/w` is named like a unit, with a unit beside it. -/
def unitDirectoryTree : FileTree :=
  ((FileTree.empty.add ["w"] .directory).add ["w", "d.ll"] .directory).add ["w", "kept.ll"]
    (.file ⟨[], false⟩)

/-- Code generation that writes `d.ll/u.ll` on that disk. -/
def writesIntoUnitDirectory : Call :=
  callWriting (.parse "/w/d.ll/u.ll") (.ok ()) (.ofTree unitDirectoryTree)

/-- The world in which that toolchain is asked for code. -/
def unitDirectoryWorld : World :=
  (perform (beforeCode writesIntoUnitDirectory.plan) writesIntoUnitDirectory.around
    writesIntoUnitDirectory.before).2

/-- The record of units beside a directory that is named like one. -/
theorem record_beside_unit_directory :
    writesIntoUnitDirectory.before.tree.WellFormed ∧
    (writesIntoUnitDirectory.treeFrom unitDirectoryWorld).WellFormed ∧
    TakesRecord (.parse "/w") [] (writesIntoUnitDirectory.treeFrom unitDirectoryWorld) ∧
    ∃ (ways : List Location) (f : File),
      [Path.parse "/w/d.ll", .parse "/w/d.ll/u.ll", .parse "/w/kept.ll"] =
        ways.map (Path.parse "/w").descend ∧
      IsRecordOf (ways.filter fun way => IsNew unitDirectoryWorld.tree
        (writesIntoUnitDirectory.treeFrom unitDirectoryWorld) (["w"] ++ way)) f ∧
      writesIntoUnitDirectory.after.tree.node? ["w", "units.json"] = some (.file f) := by
  have hwf : writesIntoUnitDirectory.before.tree.WellFormed := by decide +kernel
  have hleft : (writesIntoUnitDirectory.treeFrom unitDirectoryWorld).WellFormed := by
    decide +kernel
  have hbefore : perform (beforeCode writesIntoUnitDirectory.plan) writesIntoUnitDirectory.around
      writesIntoUnitDirectory.before =
        (.ok [(.parse "/w/d.ll", 2), (.parse "/w/kept.ll", 4)], unitDirectoryWorld) :=
    Prod.ext (by decide +kernel) rfl
  have hok : writesIntoUnitDirectory.outcome =
      .ok [.parse "/w/d.ll", .parse "/w/d.ll/u.ll", .parse "/w/kept.ll"] := by decide +kernel
  obtain ⟨-, hiff, hgiven⟩ := Call.gives_and_records_units hwf
    (isDirectory_iff.2 (node?_nil _)) hbefore rfl hleft
  obtain ⟨ways, new, f, -, hways, rfl, -, hf, hnodes⟩ := hgiven _ hok
  refine ⟨hwf, hleft, hiff.1 ⟨_, hok⟩, ways, f, hways, hf, ?_⟩
  rw [hnodes]
  exact if_pos (by decide +kernel)

/-- A directory that is named like a unit is given as one, and recorded. -/
theorem directory_is_given_and_recorded :
    writesIntoUnitDirectory.outcome =
        .ok [.parse "/w/d.ll", .parse "/w/d.ll/u.ll", .parse "/w/kept.ll"] ∧
      writesIntoUnitDirectory.after.tree.isDirectory ["w", "d.ll"] = true ∧
      namesIn writesIntoUnitDirectory.around.nesting
          (writesIntoUnitDirectory.after.tree.node? ["w", "units.json"]) =
        ["d.ll", "d.ll/u.ll"] := by
  decide +kernel

end Units

end StagedBuild
