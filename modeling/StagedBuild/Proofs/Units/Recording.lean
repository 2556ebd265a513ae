import StagedBuild.Proofs.Units.History

/-!
What one call of code generation does to the disk. Whatever its outcome, the only files that go away
are recorded units; and when it succeeds, the record lists the files that the toolchain wrote, which
are the units whose stamps are not those from before.
-/

namespace StagedBuild.Units

section Removing

open Action FileTree

variable {around : Surroundings} {w w' : World} {workdir : Path} {ways : List Location}

/-- The places of the recorded units that can be taken away. -/
def removable (base : Location) (ways : List Location) (q : Location) : Prop :=
  ∃ way ∈ ways, HasSuffix way ∧ q = base ++ way

theorem suffix_descend {way : Location} (h : ∀ s ∈ way, isEntryName s = true) (hne : way ≠ []) :
    (workdir.descend way).suffix = suffix ↔ HasSuffix way := by
  rw [Path.suffix, Path.name_descend workdir (fun s hs => isStep_of_isEntryName (h s hs)) hne,
    HasSuffix, List.getLast?_eq_some_getLast hne]
  rfl

theorem Records.paths {t : FileTree} {cwd : Location} (h : Records workdir cwd t ways)
    (around : Surroundings) :
    ((namesIn around.nesting (t.node? (recordAt cwd workdir))).map
      fun (name : String) => workdir / name) = ways.map workdir.descend := by
  rw [h.names.namesIn_nesting, List.map_map]
  refine List.map_congr_left fun way hway => ?_
  obtain ⟨hne, hnames⟩ := h.entryNames way hway
  exact Path.div_wayText workdir (fun s hs => isStep_of_isEntryName (hnames s hs)) hne

theorem placesOf_descend {cwd q : Location}
    (h : ∀ way ∈ ways, way ≠ [] ∧ ∀ s ∈ way, isEntryName s = true) :
    placesOf cwd (ways.map workdir.descend) q → removable (goalOf cwd workdir) ways q := by
  rintro ⟨u, hu, hsuffix, rfl⟩
  obtain ⟨way, hway, rfl⟩ := List.mem_map.1 hu
  obtain ⟨hne, hnames⟩ := h way hway
  exact ⟨way, hway, (suffix_descend hnames hne).1 hsuffix, goalOf_descend cwd workdir hnames⟩

section Removing

variable (hdir : Disk.LeadsToDirectory workdir w.tree around.directory)
  (hfits : RecordFits workdir) (hrecords : Records workdir around.directory w.tree ways)

include hdir hfits hrecords

theorem removeRecorded_changes :
    FilesGone (removable (goalOf around.directory workdir) ways) w
      (perform (removeRecorded workdir) around w).2 := by
  obtain ⟨htree, hpaths⟩ := perform_readRecord hdir hfits
  have hsame : ∀ v : World, v.tree = w.tree →
      FilesGone (removable (goalOf around.directory workdir) ways) w v :=
    fun v hv q => .inl (by rw [hv])
  rw [removeRecorded_eq, perform_bind]
  rcases hread : perform (readRecord workdir) around w with ⟨fault | us, v⟩
  · rw [hread] at htree
    exact hsame v htree
  · rw [hread] at htree hpaths
    obtain rfl := hpaths us rfl
    rw [hrecords.paths around]
    exact Passage.trans (hsame v htree) ((keeps_removeUnits _ _ v).mono fun q =>
      placesOf_descend hrecords.entryNames)

theorem removeRecorded_ok (h : perform (removeRecorded workdir) around w = (.ok (), w')) :
    ∀ way ∈ ways, HasSuffix way → ∀ f,
      Disk.answerAt (workdir.descend way) w'.tree around.directory ≠ .ok (some (.file f)) := by
  rw [removeRecorded_eq] at h
  obtain ⟨us, v, hread, hremove⟩ := perform_bind_eq_ok.1 h
  obtain ⟨-, hpaths⟩ := perform_readRecord hdir hfits
  rw [hread] at hpaths
  obtain rfl := hpaths us rfl
  intro way hway hsuffix
  obtain ⟨hne, hnames⟩ := hrecords.entryNames way hway
  refine no_file_of_removeUnits hremove _ ?_ ((suffix_descend hnames hne).2 hsuffix)
  rw [hrecords.paths around]
  exact List.mem_map_of_mem hway

end Removing

theorem Records.of_directoriesAdded {cwd : Location} {places : Location → Prop}
    (h : Records workdir cwd w.tree ways) (hadded : Disk.DirectoriesAdded places w w') :
      Records workdir cwd w'.tree ways where
  names := by
    rcases hadded (recordAt cwd workdir) with hq | ⟨-, hnone, hdirectory⟩
    · rw [hq]
      exact h.names
    · intro depth
      rw [← h.names depth, hnone, hdirectory]
      rfl
  entryNames := h.entryNames

/-- What may be different behind the first part of a call: new directories, and recorded units that
are gone. -/
def Cleared (base : Location) (ways : List Location) (w w' : World) : Prop :=
  ∀ q, w'.tree.node? q = w.tree.node? q ∨
    w.tree.node? q = none ∧ w'.tree.node? q = some .directory ∨
    w.tree.isFile q = true ∧ removable base ways q ∧ w'.tree.node? q = none

section BeforeCode

variable {plan : Plan} (hwf : w.tree.WellFormed)
  (hcwd : w.tree.isDirectory around.directory = true) (hfits : RecordFits plan.workdir)
  (hrecords : Records plan.workdir around.directory w.tree ways)

include hfits hrecords

theorem beforeCode_changes :
    Cleared (goalOf around.directory plan.workdir) ways w
      (perform (beforeCode plan) around w).2 := by
  have hadded := Disk.adds_makeDirectories around plan.workdir w
  rw [beforeCode, perform_bind]
  rcases hmake : perform (Disk.makeDirectories plan.workdir) around w with ⟨fault | _, w₁⟩
  · rw [hmake] at hadded
    exact fun q => (hadded q).imp id fun h => .inl h.2
  · rw [hmake] at hadded
    have hdir := Disk.leads_of_makeDirectories hmake
    have hgone := removeRecorded_changes hdir hfits (hrecords.of_directoriesAdded hadded)
    have hall : ∀ v : World, v.tree = (perform (removeRecorded plan.workdir) around w₁).2.tree →
        Cleared (goalOf around.directory plan.workdir) ways w v := by
      intro v hv q
      rw [hv]
      rcases hgone q with hq | ⟨hfile, hplace, hnone⟩
      · rw [hq]
        exact (hadded q).imp id fun h => .inl h.2
      · rcases hadded q with hq | ⟨-, -, hdirectory⟩
        · exact .inr (.inr ⟨isFile_congr hq ▸ hfile, hplace, hnone⟩)
        · exact absurd hfile (not_isFile_of_isDirectory (isDirectory_iff.2 hdirectory))
    dsimp only
    rw [perform_bind]
    rcases hremove : perform (removeRecorded plan.workdir) around w₁ with ⟨fault | _, w₂⟩
    · exact hall _ (by rw [hremove])
    · refine hall _ ?_
      rw [hremove]
      exact congrArg World.tree (readOnly_stamps plan.workdir around w₂)

include hwf hcwd

theorem beforeCode_ok {before : List (Path × Nat)}
    (h : perform (beforeCode plan) around w = (.ok before, w')) :
    Disk.LeadsToDirectory plan.workdir w'.tree around.directory ∧
      before = (unitWays w'.tree (goalOf around.directory plan.workdir)).map (fun way =>
        (plan.workdir.descend way,
          stampAt w'.tree (goalOf around.directory plan.workdir ++ way))) ∧
      ∀ way ∈ ways, IsUnitWay way → HasSuffix way →
        ¬ w'.tree.isFile (goalOf around.directory plan.workdir ++ way) = true := by
  have hadded := Disk.adds_makeDirectories around plan.workdir w
  have hsound := sound_beforeCode around plan w hwf hcwd
  rw [h] at hsound
  obtain ⟨_, w₁, hmake, h₁⟩ := perform_bind_eq_ok.1 h
  obtain ⟨_, w₂, hremove, hstamps⟩ := perform_bind_eq_ok.1 h₁
  rw [hmake] at hadded
  have hsound₁ := Disk.sound_makeDirectories (Disk.startsFrom_self _ plan.workdir) w hwf hcwd
  rw [hmake] at hsound₁
  have hdir := Disk.leads_of_makeDirectories hmake
  have hsound₂ := sound_removeRecorded around plan.workdir w₁ hsound₁.1
    (hsound₁.2 _ hcwd)
  rw [hremove] at hsound₂
  have hdir₂ := hdir.mono hsound₂.2
  obtain ⟨rfl, hbefore, hanswers⟩ := perform_stamps_ok hsound₂.1 hdir₂ hstamps
  refine ⟨hdir₂, hbefore, fun way hway hunit hsuffix hfile => ?_⟩
  obtain ⟨node, hanswer⟩ := hanswers way (mem_unitWays.2 ⟨hunit, isOccupied_of_isFile hfile⟩)
  obtain ⟨f, hf⟩ := isFile_iff.1 hfile
  have hnode := (Disk.answerAt_eq_some_iff.1 hanswer).2.2
  rw [goalOf_descend _ _ (hrecords.entryNames way hway).2, hf] at hnode
  cases hnode
  exact removeRecorded_ok hdir hfits (hrecords.of_directoriesAdded hadded) hremove way hway
    hsuffix f hanswer

end BeforeCode

end Removing

section Stamping

open Action FileTree

variable {around : Surroundings} {w w' : World} {workdir : Path}

/-- The ways to the units whose stamps are not among those from before. -/
def newWays (before : List (Path × Nat)) (workdir : Path) (t : FileTree) (base : Location) :
    List Location :=
  (unitWays t base).filter fun way =>
    before.lookup (workdir.descend way) ≠ some (stampAt t (base ++ way))

theorem mem_newWays {before : List (Path × Nat)} {t : FileTree} {base way : Location} :
    way ∈ newWays before workdir t base ↔
      (IsUnitWay way ∧ t.isOccupied (base ++ way) = true) ∧
        before.lookup (workdir.descend way) ≠ some (stampAt t (base ++ way)) := by
  rw [newWays, List.mem_filter, mem_unitWays, decide_eq_true_eq]

theorem newWays_entryNames {before : List (Path × Nat)} {t : FileTree} (ht : t.WellFormed)
    {base : Location} : ∀ way ∈ newWays before workdir t base,
      way ≠ [] ∧ ∀ s ∈ way, isEntryName s = true := by
  intro way hway
  obtain ⟨⟨hunit, hocc⟩, -⟩ := mem_newWays.1 hway
  exact ⟨hunit.1, entryNames_of_isOccupied ht hocc⟩

/-- The units that are there afterwards are the result, and the new ones are recorded; or the
disk is left as the toolchain left it. -/
theorem perform_afterCode {plan : Plan} (hwf : w.tree.WellFormed)
    (hdir : Disk.LeadsToDirectory plan.workdir w.tree around.directory)
    (hfits : RecordFits plan.workdir) (before : List (Path × Nat)) :
    (∃ fault, perform (afterCode plan before) around w = (.error fault, w)) ∨
      ∃ (w' : World) (f : File), perform (afterCode plan before) around w =
          (.ok ((unitWays w.tree (goalOf around.directory plan.workdir)).map
            plan.workdir.descend), w') ∧
        Lists (some (.file f)) ((newWays before plan.workdir w.tree
          (goalOf around.directory plan.workdir)).map Path.wayText) ∧
        ∀ q, w'.tree.node? q =
          if q = recordAt around.directory plan.workdir then some (.file f)
          else w.tree.node? q := by
  unfold afterCode
  rcases hstamps : perform (stamps plan.workdir) around w with ⟨fault | stamped, v⟩
  · obtain rfl : v = w := by
      have hv : (perform (stamps plan.workdir) around w).2 = w :=
        readOnly_stamps plan.workdir around w
      rwa [hstamps] at hv
    exact .inl ⟨fault, perform_bind_error hstamps⟩
  · obtain ⟨rfl, rfl, -⟩ := perform_stamps_ok hwf hdir hstamps
    rw [perform_bind_ok hstamps]
    simp only [List.filter_map, List.map_map]
    change (∃ fault, perform (writeRecord plan.workdir ((newWays before plan.workdir v.tree
        (goalOf around.directory plan.workdir)).map plan.workdir.descend) >>= _) around v = _) ∨ _
    rcases perform_writeRecord hdir hfits (fun way hway => (newWays_entryNames hwf way hway).imp id
        fun h s hs => isStep_of_isEntryName (h s hs)) with ⟨fault, herror⟩ |
          ⟨w', f, hok, hf, hnodes⟩
    · exact .inl ⟨fault, perform_bind_error herror⟩
    · exact .inr ⟨w', f, perform_bind_ok hok, hf, hnodes⟩

theorem isStep_recordName : isStep recordName = true :=
  isStep_of_isEntryName isEntryName_recordName

theorem of_perform_writeRecord {units : List Path} {record : Path}
    (h : perform (writeRecord workdir units) around w = (.ok record, w')) :
    Disk.LeadsToDirectory workdir w.tree around.directory ∧ RecordFits workdir ∧
      ¬ w.tree.isDirectory (recordAt around.directory workdir) = true := by
  obtain ⟨names, v, hnames, hrest⟩ := perform_bind_eq_ok.1 h
  rw [perform_ofExcept] at hnames
  obtain ⟨-, rfl⟩ := Prod.mk.inj hnames
  obtain ⟨_, v₁, hwrite, -⟩ := perform_bind_eq_ok.1 hrest
  obtain ⟨_, v₂, htruncate, -⟩ := perform_bind_eq_ok.1 hwrite
  rw [Disk.truncate, Disk.perform_change] at htruncate
  split at htruncate
  · rename_i hask
    split at htruncate
    · rename_i t ht
      obtain ⟨loc, hloc, hnot, -⟩ := exists_of_write ht
      have hsteps : (workdir / recordName).steps ≠ [] := by
        simp [Path.steps_div workdir isStep_recordName]
      have hleads := Disk.leads_parent_of_locate hask hsteps hloc
      rw [Path.parent_div workdir isStep_recordName] at hleads
      have hfits : RecordFits workdir := (locate_eq_ok_iff.1 hloc).2.1
      refine ⟨hleads, hfits, ?_⟩
      rw [locate_record hleads hfits] at hloc
      cases hloc
      exact hnot
    · cases htruncate
  · cases htruncate

theorem recordFits_of_generate {plan : Plan} {tools : IrTools} {defns : List Definition}
    {units : List Path}
    (h : perform (generate plan tools defns) around w = (.ok units, w')) :
    RecordFits plan.workdir := by
  rw [generate_eq] at h
  obtain ⟨before, v, -, h₁⟩ := perform_bind_eq_ok.1 h
  obtain ⟨_, v₁, -, h₂⟩ := perform_bind_eq_ok.1 h₁
  obtain ⟨stamped, v₂, -, h₃⟩ := perform_bind_eq_ok.1 h₂
  obtain ⟨record, v₃, hrecord, -⟩ := perform_bind_eq_ok.1 h₃
  exact (of_perform_writeRecord hrecord).2.1

section Stamps

variable {t t' : FileTree} {loc : Location}

theorem isOccupied_iff_stamp (h : loc ≠ []) :
    t.isOccupied loc = true ↔ t.stamp? loc = some (stampAt t loc) := by
  rw [isOccupied, node?_of_ne_nil t h, stampAt, stamp?]
  rcases t.entries[loc]? with _ | entry <;> simp

theorem lookup_stamps {base : Location} (ht : t.WellFormed) {way : Location}
    (hnames : ∀ s ∈ way, isEntryName s = true) (hunit : IsUnitWay way) :
    ((unitWays t base).map fun way =>
      (workdir.descend way, stampAt t (base ++ way))).lookup (workdir.descend way) =
        t.stamp? (base ++ way) := by
  have hne : base ++ way ≠ [] := by simp [hunit.1]
  have hlookup : ∀ ways : List Location, (∀ x ∈ ways, ∀ s ∈ x, isEntryName s = true) →
      (ways.map fun x => (workdir.descend x, stampAt t (base ++ x))).lookup (workdir.descend way) =
        if way ∈ ways then some (stampAt t (base ++ way)) else none := by
    intro ways hways
    induction ways with
    | nil => rfl
    | cons x ways ih =>
        rw [List.map_cons, List.lookup_cons, ih fun y hy => hways y (List.mem_cons_of_mem _ hy)]
        by_cases hx : way = x
        · subst hx
          simp
        · have hpath : workdir.descend way ≠ workdir.descend x := fun heq => hx
            (Path.descend_injective (fun s hs => isStep_of_isEntryName (hnames s hs))
              (fun s hs => isStep_of_isEntryName (hways x (by simp) s hs)) heq)
          rw [beq_false_of_ne hpath]
          simp [hx]
  rw [hlookup _ fun x hx => entryNames_of_isOccupied ht (mem_unitWays.1 hx).2]
  by_cases hocc : t.isOccupied (base ++ way) = true
  · rw [if_pos (mem_unitWays.2 ⟨hunit, hocc⟩), (isOccupied_iff_stamp hne).1 hocc]
  · rw [if_neg fun hmem => hocc (mem_unitWays.1 hmem).2]
    rw [isOccupied, node?_of_ne_nil t hne] at hocc
    rw [stamp?]
    rcases hentry : t.entries[base ++ way]? with _ | entry
    · rfl
    · simp [hentry] at hocc

theorem mem_newWays_iff_rewrote {base way : Location} (ht : t.WellFormed) (ht' : t'.WellFormed)
    (hunit : IsUnitWay way) (hnot : ¬ t'.isDirectory (base ++ way) = true) :
    way ∈ newWays ((unitWays t base).map fun way =>
        (workdir.descend way, stampAt t (base ++ way))) workdir t' base ↔
      Rewrote t t' (base ++ way) := by
  have hne : base ++ way ≠ [] := by simp [hunit.1]
  rw [mem_newWays, Rewrote]
  constructor
  · rintro ⟨⟨-, hocc⟩, hlookup⟩
    rw [lookup_stamps ht (entryNames_of_isOccupied ht' hocc) hunit,
      ← (isOccupied_iff_stamp hne).1 hocc] at hlookup
    exact ⟨(isFile_or_isDirectory hocc).resolve_right hnot, Ne.symm hlookup⟩
  · rintro ⟨hfile, hstamp⟩
    have hocc := isOccupied_of_isFile hfile
    refine ⟨⟨hunit, hocc⟩, ?_⟩
    rw [lookup_stamps ht (entryNames_of_isOccupied ht' hocc) hunit,
      ← (isOccupied_iff_stamp hne).1 hocc]
    exact Ne.symm hstamp

theorem isFile_of_not_rewrote (hdirs : ∀ q, t.isDirectory q = true → t'.isDirectory q = true)
    (hfile : t'.isFile loc = true) (hnot : ¬ Rewrote t t' loc) : t.isFile loc = true := by
  have hne := ne_nil_of_isFile hfile
  have hstamp : t'.stamp? loc = t.stamp? loc := by
    by_contra hstamp
    exact hnot ⟨hfile, hstamp⟩
  have hocc : t.isOccupied loc = true := by
    have hsome := (isOccupied_iff_stamp hne).1 (isOccupied_of_isFile hfile)
    rw [isOccupied_iff_stamp hne, ← hstamp, stampAt, ← hstamp]
    exact hsome
  refine (isFile_or_isDirectory hocc).resolve_right fun hdir => ?_
  exact not_isFile_of_isDirectory (hdirs loc hdir) hfile

end Stamps

end Stamping

end StagedBuild.Units
