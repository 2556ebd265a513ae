import StagedBuild.Proofs.Action.Renaming
import StagedBuild.Proofs.Units.Readable
import StagedBuild.Proofs.Units.Recording

/-!
The record of units is read back as it was written. The paths in it are relative to the work
directory, and each leads back from there, whatever characters its names have. Main statement:
`readRecord_of_writeRecord`.
-/

namespace StagedBuild

namespace Path

variable {p base q : Path}

theorem relativeTo?_isSome_iff :
    (p.relativeTo? base).isSome = true ↔ base.anchor = p.anchor ∧ base.steps <+: p.steps := by
  rw [relativeTo?, ← List.isPrefixOf_iff_prefix]
  split <;> simp_all

theorem join_relativeTo? (h : p.relativeTo? base = some q) : base.join q = p := by
  unfold relativeTo? at h
  split at h
  · rename_i hbelow
    obtain ⟨rest, hrest⟩ := List.isPrefixOf_iff_prefix.1 hbelow.2
    cases h
    refine ext_steps ((anchor_join rfl).trans hbelow.1) ?_
    rw [steps_join rfl]
    change base.steps ++ p.steps.drop base.steps.length = p.steps
    rw [← hrest, List.drop_left]
  · cases h

theorem div_text_relativeTo? (h : p.relativeTo? base = some q) : base / q.text = p := by
  change base.join (parse q.text) = p
  rw [parse_text, join_relativeTo? h]

end Path

namespace Units

open Action Disk FileTree

variable {around : Surroundings} {w w' : World} {workdir : Path} {units : List Path}

/-- Units in or below a work directory have names there, and these lead back to them. -/
theorem exists_relativeNames
    (h : ∀ u ∈ units, workdir.anchor = u.anchor ∧ workdir.steps <+: u.steps) :
    ∃ names, relativeNames workdir units = .ok names ∧
      (names.map fun (name : String) => workdir / name) = units := by
  unfold relativeNames
  induction units with
  | nil => exact ⟨[], rfl, rfl⟩
  | cons u units ih =>
      rw [List.forall_mem_cons] at h
      obtain ⟨way, hway⟩ := Option.isSome_iff_exists.1 (Path.relativeTo?_isSome_iff.2 h.1)
      obtain ⟨names, hnames, hback⟩ := ih h.2
      refine ⟨way.text :: names, ?_, ?_⟩
      · rw [List.mapM_cons, hway, hnames]
        rfl
      · rw [List.map_cons, Path.div_text_relativeTo? hway, hback]

theorem perform_readRecord_of_bytesAt {names : List String}
    (h : bytesAt (workdir / recordName) w.tree around.directory =
      .ok (Text.encode (recordText names))) :
    perform (readRecord workdir) around w =
      (.ok (names.map fun (name : String) => workdir / name), w) := by
  have hplain := plain_names (around.stackRoom + 1) names
  have hreads : RecordReads around.nesting workdir w.tree around.directory
      (.ok (.array (names.map .text))) :=
    ⟨_, _, h, hplain.decodeFile?_document, Json.parse_document hplain⟩
  rw [perform_readRecord_of_value hreads.perform_readRecordValue, recordedNames_array]
  rfl

theorem perform_writeRecord_of_room {names : List String}
    (hnames : relativeNames workdir units = .ok names)
    (hdir : LeadsToDirectory workdir w.tree around.directory) (hfits : RecordFits workdir)
    (hfree : ¬ w.tree.isDirectory (recordAt around.directory workdir) = true) :
    ∃ w', perform (writeRecord workdir units) around w = (.ok (workdir / recordName), w') := by
  unfold writeRecord
  rw [hnames, perform_bind_ok (perform_ofExcept_id _ _ _)]
  rcases perform_writeBytes (isAskable_record hdir) (locate_record hdir hfits)
    (Text.encode (recordText names)) with ⟨hdirectory, -⟩ | ⟨-, w', -, hok, -⟩
  · exact absurd hdirectory hfree
  · exact ⟨w', perform_bind_ok hok⟩

theorem bytesAt_of_perform_writeRecord {names : List String} {record : Path}
    (hnames : relativeNames workdir units = .ok names)
    (h : perform (writeRecord workdir units) around w = (.ok record, w')) :
    record = workdir / recordName ∧ bytesAt record w'.tree around.directory =
      .ok (Text.encode (recordText names)) := by
  unfold writeRecord at h
  rw [hnames, perform_bind_ok (perform_ofExcept_id _ _ _)] at h
  obtain ⟨_, v, hwrite, hrecord⟩ := perform_bind_eq_ok.1 h
  cases hrecord
  exact ⟨rfl, bytesAt_of_perform_writeBytes hwrite⟩

/-- Units in or below a work directory are recorded exactly when the directory is there and has room
for the record. As long as the record holds what was written, reading it gives the paths of the
units in their order, and changes nothing. -/
theorem readRecord_of_writeRecord (around : Surroundings) (w : World) (workdir : Path)
    (units : List Path)
    (hbelow : ∀ u ∈ units, workdir.anchor = u.anchor ∧ workdir.steps <+: u.steps) :
    ((∃ record w', perform (writeRecord workdir units) around w = (.ok record, w')) ↔
      LeadsToDirectory workdir w.tree around.directory ∧ RecordFits workdir ∧
        ¬ w.tree.isDirectory (recordAt around.directory workdir) = true) ∧
    ∀ record w', perform (writeRecord workdir units) around w = (.ok record, w') →
      perform (readRecord workdir) around w' = (.ok units, w') ∧
      ∀ later : World, bytesAt record later.tree around.directory =
          bytesAt record w'.tree around.directory →
        perform (readRecord workdir) around later = (.ok units, later) := by
  obtain ⟨names, hnames, hback⟩ := exists_relativeNames hbelow
  refine ⟨⟨?_, ?_⟩, fun record w' hwrite => ?_⟩
  · rintro ⟨record, w', hwrite⟩
    exact of_perform_writeRecord hwrite
  · rintro ⟨hdir, hfits, hfree⟩
    exact ⟨_, perform_writeRecord_of_room hnames hdir hfits hfree⟩
  · obtain ⟨rfl, hbytes⟩ := bytesAt_of_perform_writeRecord hnames hwrite
    have hread : ∀ later : World, bytesAt (workdir / recordName) later.tree around.directory =
        bytesAt (workdir / recordName) w'.tree around.directory →
          perform (readRecord workdir) around later = (.ok units, later) := by
      intro later hlater
      rw [perform_readRecord_of_bytesAt (hlater.trans hbytes), hback]
    exact ⟨hread w' rfl, hread⟩

/-- Units of `/w` whose names have quotes, a backslash, breaks, a control character and characters
that are not ASCII. -/
def oddUnits : List Path :=
  [.parse "/w/a\"b\\c.ll", .parse "/w/sub/x\ny\r\t.ll", .parse "/w/\x01.ll", .parse "/w/日本😀.ll"]

/-- Such units are recorded and read back. -/
theorem odd_units_read_back :
    (∀ u ∈ oddUnits, (Path.parse "/w").anchor = u.anchor ∧ (Path.parse "/w").steps <+: u.steps) ∧
      ∃ record w', perform (writeRecord (.parse "/w") oddUnits) (.still [])
          (.ofTree (FileTree.empty.add ["w"] .directory)) = (.ok record, w') ∧
        perform (readRecord (.parse "/w")) (.still []) w' = (.ok oddUnits, w') := by
  have hbelow : ∀ u ∈ oddUnits,
      (Path.parse "/w").anchor = u.anchor ∧ (Path.parse "/w").steps <+: u.steps := by
    decide +kernel
  have hroom : LeadsToDirectory (.parse "/w") (FileTree.empty.add ["w"] .directory) [] ∧
      RecordFits (.parse "/w") ∧ ¬ (FileTree.empty.add ["w"] .directory).isDirectory
        (recordAt [] (.parse "/w")) = true := by
    rw [LeadsToDirectory, RecordFits]
    decide +kernel
  obtain ⟨hwrites, hreads⟩ := readRecord_of_writeRecord (.still [])
    (.ofTree (FileTree.empty.add ["w"] .directory)) (.parse "/w") oddUnits hbelow
  obtain ⟨record, w', hwrite⟩ := hwrites.2 hroom
  exact ⟨hbelow, record, w', hwrite, (hreads record w' hwrite).1⟩

end Units

end StagedBuild
