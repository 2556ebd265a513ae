import StagedBuild.Proofs.Json.Documents
import StagedBuild.Proofs.Path.Extension
import StagedBuild.Proofs.Units.Listing

/-!
The record of units, and taking recorded units away. Reading a record gives what was recorded by the
last call that wrote it: the ways down to the units, written with slashes. Only files go away, only
where the record leads, and afterwards none of the recorded units with the right extension leads to
a file. A unit whose whole name is the extension has none, and stays.
-/

namespace StagedBuild.Units

section Records

open Action FileTree

variable {around : Surroundings} {w w' : World} {workdir : Path}

/-- The names that a record lists. What is no record lists none. -/
def namesIn (depth : Nat) : Option Node → List String
  | some (.file f) =>
    match Text.decodeFile? f.bytes with
    | some text =>
      match Json.parse depth text with
      | .ok value => (recordedNames value).toOption.getD []
      | .error _ => []
    | none => []
  | _ => []

/-- A record lists names, however deep values may be nested. -/
def Lists (node : Option Node) (names : List String) : Prop :=
  ∀ depth, namesIn (depth + 1) node = names

theorem Lists.namesIn_nesting {node : Option Node} {names : List String} (h : Lists node names)
    (around : Surroundings) : namesIn around.nesting node = names :=
  h (around.stackRoom + 1)

theorem plain_names (depth : Nat) (names : List String) :
    Json.Plain (depth + 1) (.array (names.map .text)) := by
  refine .array fun v hv => ?_
  obtain ⟨s, -, rfl⟩ := List.mem_map.1 hv
  exact .text _ s

theorem recordedNames_array (names : List String) :
    recordedNames (.array (names.map .text)) = .ok names := by
  simp [recordedNames, List.filterMap_map]

theorem lists_recordText {f : File} {names : List String}
    (hf : f.bytes = Text.encode (recordText names)) : Lists (some (.file f)) names := by
  intro depth
  have hplain := plain_names depth names
  simp only [namesIn, hf, recordText, hplain.decodeFile?_document, Json.parse_document hplain,
    recordedNames_array]
  rfl

/-- The location of the record in a work directory. -/
def recordAt (cwd : Location) (workdir : Path) : Location :=
  goalOf cwd workdir ++ [recordName]

theorem isEntryName_recordName : isEntryName recordName = true := by
  decide

/-- The path of the record is not too long. -/
def RecordFits (workdir : Path) : Prop :=
  (workdir / recordName).text.utf8ByteSize ≤ pathLimit

theorem locate_record {t : FileTree} {cwd : Location} (h : Disk.LeadsToDirectory workdir t cwd)
    (hfits : RecordFits workdir) :
    t.locate cwd (workdir / recordName) = .ok (recordAt cwd workdir) :=
  h.locate_child isEntryName_recordName hfits

theorem isAskable_record {t : FileTree} {cwd : Location}
    (h : Disk.LeadsToDirectory workdir t cwd) : Disk.isAskable (workdir / recordName) = true :=
  h.isAskable_child isEntryName_recordName

theorem perform_readRecordValue (h : Disk.LeadsToDirectory workdir w.tree around.directory)
    (hfits : RecordFits workdir) :
    perform (readRecordValue (workdir / recordName)) around w =
      (match w.tree.node? (recordAt around.directory workdir) with
        | some (.file f) =>
          match Text.decodeFile? f.bytes with
          | some text => (Json.parse around.nesting text).mapError Json.ReadFault.toFault
          | none => .error .undecodable
        | some .directory => .error (.system (.on .isDirectory (workdir / recordName).text))
        | none => .error (.system (.on .noEntry (workdir / recordName).text)), w) := by
  have hloc := locate_record h hfits
  have hbytes : perform (Disk.readBytes (workdir / recordName)) around w =
      (match w.tree.node? (recordAt around.directory workdir) with
        | some (.file f) => .ok f.bytes
        | some .directory => .error (.system (.on .isDirectory (workdir / recordName).text))
        | none => .error (.system (.on .noEntry (workdir / recordName).text)), w) := by
    rw [Disk.readBytes, Disk.perform_ask, if_pos (isAskable_record h)]
    rcases hnode : w.tree.node? (recordAt around.directory workdir) with _ | _ | f
    · simp [openFile, lookup, hloc, hnode, bind, Except.bind, mapError_error]
    · simp [openFile, lookup, hloc, hnode, bind, Except.bind, mapError_error]
    · simp [openFile, lookup, hloc, hnode, bind, Except.bind, mapError_ok]
  rw [readRecordValue, Disk.readText, bind_assoc, perform_bind, hbytes]
  rcases w.tree.node? (recordAt around.directory workdir) with _ | _ | f
  · rfl
  · rfl
  · simp only
    rcases Text.decodeFile? f.bytes with _ | text
    · rfl
    · simp only [pure_bind, Json.perform_ofText]

/-- What comes of a record that cannot be read. -/
def withoutRecord (workdir : Path) (fault : Fault) : Action (List Path) :=
  if fault.isMissing then return []
  else if fault.isSystem || fault.isValue then do
    Action.warn (.unreadableRecord (workdir / recordName) fault)
    return []
  else throw fault

theorem perform_withoutRecord (workdir : Path) (fault : Fault) (around : Surroundings)
    (w : World) :
    (perform (withoutRecord workdir fault) around w).2.tree = w.tree ∧
      ∀ paths, (perform (withoutRecord workdir fault) around w).1 = .ok paths → paths = [] := by
  unfold withoutRecord
  rcases fault.isMissing with _ | _
  · rcases fault.isSystem || fault.isValue with _ | _
    · exact ⟨rfl, fun paths h => by cases h⟩
    · exact ⟨rfl, fun paths h => by cases h; rfl⟩
  · exact ⟨rfl, fun paths h => by cases h; rfl⟩

theorem perform_readRecord (h : Disk.LeadsToDirectory workdir w.tree around.directory)
    (hfits : RecordFits workdir) :
    (perform (readRecord workdir) around w).2.tree = w.tree ∧
      ∀ paths, (perform (readRecord workdir) around w).1 = .ok paths →
        paths = (namesIn around.nesting (w.tree.node? (recordAt around.directory workdir))).map
          fun (name : String) => workdir / name := by
  unfold readRecord
  simp only [perform_bind, perform_outcome, perform_readRecordValue h hfits]
  rcases w.tree.node? (recordAt around.directory workdir) with _ | _ | f
  · exact perform_withoutRecord workdir _ around w
  · exact perform_withoutRecord workdir _ around w
  · simp only [namesIn]
    rcases Text.decodeFile? f.bytes with _ | text
    · exact perform_withoutRecord workdir _ around w
    · simp only
      rcases Json.parse around.nesting text with e | value
      · exact perform_withoutRecord workdir _ around w
      · simp only [mapError_ok]
        rw [perform_bind, perform_ofExcept_id]
        rcases recordedNames value with e | names
        · exact ⟨rfl, fun paths h => by cases h⟩
        · exact ⟨rfl, fun paths h => by cases h; rfl⟩

theorem relativeNames_descend {ways : List Location}
    (h : ∀ way ∈ ways, way ≠ [] ∧ ∀ s ∈ way, isStep s = true) :
    relativeNames workdir (ways.map workdir.descend) = .ok (ways.map Path.wayText) := by
  unfold relativeNames
  induction ways with
  | nil => rfl
  | cons way ways ih =>
      obtain ⟨hne, hsteps⟩ := h way (by simp)
      rw [List.map_cons, List.mapM_cons, ih fun x hx => h x (List.mem_cons_of_mem _ hx),
        Path.relativeTo?_descend workdir hsteps]
      simp only [← Path.wayText_eq_text hsteps hne]
      rfl

theorem perform_writeRecord (hdir : Disk.LeadsToDirectory workdir w.tree around.directory)
    (hfits : RecordFits workdir) {ways : List Location}
    (hways : ∀ way ∈ ways, way ≠ [] ∧ ∀ s ∈ way, isStep s = true) :
    (∃ fault, perform (writeRecord workdir (ways.map workdir.descend)) around w =
        (.error fault, w)) ∨
      ∃ w' f, perform (writeRecord workdir (ways.map workdir.descend)) around w =
          (.ok (workdir / recordName), w') ∧
        Lists (some (.file f)) (ways.map Path.wayText) ∧
        ∀ q, w'.tree.node? q =
          if q = recordAt around.directory workdir then some (.file f) else w.tree.node? q := by
  unfold writeRecord
  rw [relativeNames_descend hways, perform_bind_ok (perform_ofExcept_id _ _ _)]
  rcases Disk.perform_writeBytes (isAskable_record hdir) (locate_record hdir hfits)
    (Text.encode (recordText (ways.map Path.wayText))) with ⟨-, herror⟩ |
      ⟨-, w', f, hok, hf, hnodes⟩
  · exact .inl ⟨_, perform_bind_error herror⟩
  · exact .inr ⟨w', f, perform_bind_ok hok, lists_recordText hf, hnodes⟩

end Records

section Removals

open Action FileTree

variable {around : Surroundings} {w w' : World} {workdir : Path}

/-- The only changes of the disk are that files in some places are gone. -/
def FilesGone (places : Location → Prop) (w w' : World) : Prop :=
  ∀ q, w'.tree.node? q = w.tree.node? q ∨
    w.tree.isFile q = true ∧ places q ∧ w'.tree.node? q = none

namespace FilesGone

variable {places : Location → Prop}

instance : Passage (FilesGone places) where
  refl _ := fun _ => .inl rfl
  trans := by
    intro u v w huv hvw q
    rcases hvw q with hq | ⟨hfile, hplace, hnone⟩
    · rw [hq]
      exact huv q
    · rcases huv q with hq | ⟨-, -, hgone⟩
      · exact .inr ⟨isFile_congr hq ▸ hfile, hplace, hnone⟩
      · rw [isFile_iff] at hfile
        simp [hgone] at hfile

theorem mono {places' : Location → Prop} (h : FilesGone places w w')
    (hsub : ∀ q, places q → places' q) : FilesGone places' w w' := fun q =>
  (h q).imp id fun ⟨hfile, hplace, hnone⟩ => ⟨hfile, hsub q hplace, hnone⟩

theorem isDirectory_eq (h : FilesGone places w w') (q : Location) :
    w'.tree.isDirectory q = w.tree.isDirectory q := by
  rcases h q with hq | ⟨hfile, -, hnone⟩
  · exact isDirectory_congr hq
  · obtain ⟨f, hf⟩ := isFile_iff.1 hfile
    simp [isDirectory, hnone, hf]

theorem answerAt_of_file (h : FilesGone places w w') {p : Path} {cwd : Location} {f : File}
    (hfile : Disk.answerAt p w'.tree cwd = .ok (some (.file f))) :
    Disk.answerAt p w.tree cwd = .ok (some (.file f)) := by
  obtain ⟨hask, hloc, hnode⟩ := Disk.answerAt_eq_some_iff.1 hfile
  obtain ⟨-, htext, hpassed, hfits⟩ := locate_eq_ok_iff.1 hloc
  refine Disk.answerAt_eq_some_iff.2 ⟨hask, locate_eq_ok_iff.2
    ⟨rfl, htext, fun v hv => h.isDirectory_eq v ▸ hpassed v hv, hfits⟩, ?_⟩
  rcases h (goalOf cwd p) with hq | ⟨-, -, hnone⟩
  · rw [← hq, hnode]
  · rw [hnone] at hnode
    cases hnode

end FilesGone

/-- Takes a unit away if it is a file with the right extension. -/
def removeUnit (u : Path) : Action Unit := do
  if u.suffix = suffix then
    if ← Disk.isFile u then Disk.unlink u

theorem removeRecorded_eq (workdir : Path) :
    removeRecorded workdir = readRecord workdir >>= fun us => us.forM removeUnit := rfl

theorem perform_removeUnit (u : Path) (around : Surroundings) (w : World) :
    perform (removeUnit u) around w =
      if u.suffix = suffix then
        match Disk.answerAt u w.tree around.directory with
        | .error fault => (.error fault, w)
        | .ok node =>
          if Disk.isFileNode node = true then perform (Disk.unlink u) around w else (.ok (), w)
      else (.ok (), w) := by
  rw [removeUnit, perform_ite, perform_bind, Disk.perform_isFile]
  rcases Disk.answerAt u w.tree around.directory with fault | node
  · rfl
  · simp only [Except.map, perform_ite, perform_pure]

/-- The places where units with the right extension are. -/
def placesOf (cwd : Location) (us : List Path) (q : Location) : Prop :=
  ∃ u ∈ us, u.suffix = suffix ∧ goalOf cwd u = q

theorem keeps_removeUnit {us : List Path} {u : Path} (hu : u ∈ us) :
    Keeps around (FilesGone (placesOf around.directory us)) (removeUnit u) := by
  intro w
  rw [perform_removeUnit]
  split
  · rename_i hsuffix
    split
    · exact Passage.refl w
    · split
      · refine Disk.keeps_unlink_at (fun w loc _ hloc hfile q => ?_) w
        obtain rfl := (locate_eq_ok_iff.1 hloc).1
        by_cases hq : q = goalOf around.directory u
        · subst hq
          exact .inr ⟨hfile, ⟨u, hu, hsuffix, rfl⟩,
            by rw [node?_remove (ne_nil_of_isFile hfile), if_pos rfl]⟩
        · exact .inl (by rw [node?_remove (ne_nil_of_isFile hfile), if_neg hq])
      · exact Passage.refl w
  · exact Passage.refl w

theorem keeps_removeUnits (around : Surroundings) (us : List Path) :
    Keeps around (FilesGone (placesOf around.directory us)) (us.forM removeUnit) :=
  Keeps.forM fun _ hu => keeps_removeUnit hu

theorem no_file_of_removeUnit {u : Path} (h : perform (removeUnit u) around w = (.ok (), w'))
    (hsuffix : u.suffix = suffix) (f : File) :
    Disk.answerAt u w'.tree around.directory ≠ .ok (some (.file f)) := by
  intro hfile
  rw [perform_removeUnit, if_pos hsuffix] at h
  rcases hanswer : Disk.answerAt u w.tree around.directory with fault | node
  · rw [hanswer] at h
    cases h
  · rw [hanswer] at h
    dsimp only at h
    by_cases hnode : Disk.isFileNode node = true
    · rw [if_pos hnode] at h
      obtain ⟨g, rfl⟩ : ∃ g, node = some (.file g) := by
        rcases node with _ | _ | g
        · cases hnode
        · cases hnode
        · exact ⟨g, rfl⟩
      obtain ⟨hask, hloc, hg⟩ := Disk.answerAt_eq_some_iff.1 hanswer
      have hunlink : w.tree.unlink around.directory u =
          .ok (w.tree.remove (goalOf around.directory u)) :=
        unlink_eq hloc (isFile_iff.2 ⟨g, hg⟩)
      rw [Disk.unlink, Disk.perform_change, if_pos hask, hunlink] at h
      cases h
      have hgone := (Disk.answerAt_eq_some_iff.1 hfile).2.2
      rw [node?_remove (ne_nil_of_isFile (isFile_iff.2 ⟨g, hg⟩)), if_pos rfl] at hgone
      cases hgone
    · rw [if_neg hnode] at h
      cases h
      rw [hanswer] at hfile
      cases hfile
      exact hnode rfl

theorem no_file_of_removeUnits {us : List Path}
    (h : perform (us.forM removeUnit) around w = (.ok (), w')) :
    ∀ u ∈ us, u.suffix = suffix → ∀ f,
      Disk.answerAt u w'.tree around.directory ≠ .ok (some (.file f)) := by
  induction us generalizing w with
  | nil => simp
  | cons first us ih =>
      obtain ⟨_, v, hfirst, hrest⟩ := perform_bind_eq_ok.1 h
      intro u hu hsuffix f
      rcases List.mem_cons.1 hu with rfl | hu
      · intro hfile
        have hgone := keeps_removeUnits around us v
        rw [hrest] at hgone
        exact no_file_of_removeUnit hfirst hsuffix f (hgone.answerAt_of_file hfile)
      · exact ih hrest u hu hsuffix f

theorem suffix_of_isUnitName {name : String} (h : isUnitName name = true) :
    (Path.splitName name).2 = suffix ↔ name ≠ suffix := by
  rw [isUnitName, List.isSuffixOf_iff_suffix] at h
  obtain ⟨front, hfront⟩ := h
  have hname : name = String.ofList front ++ suffix := by
    rw [← String.toList_inj, String.toList_append, String.toList_ofList, hfront]
  by_cases hnil : String.ofList front = ""
  · rw [hname, hnil, String.empty_append]
    decide
  · have hextension : Path.IsExtension suffix := ⟨['l', 'l'], rfl, by decide, by decide⟩
    rw [hname, Path.splitName_extended hnil hextension]
    simp only [true_iff]
    intro heq
    exact hnil (String.append_eq_right_iff.1 heq)

end Removals

end StagedBuild.Units
