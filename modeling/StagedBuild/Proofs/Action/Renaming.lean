import StagedBuild.Proofs.Action.Spares

/-!
Taking a file away and moving one. A file that is to be gone is gone afterwards, whatever the
outcome, and where nothing stands a file can be moved to.
-/

namespace StagedBuild

namespace FileTree

variable {t : FileTree} {source target : Location} {f : File}

theorem node?_moveFile (hfile : t.node? source = some (.file f)) (hne : source ≠ target)
    (htarget : target ≠ []) (q : Location) :
    (t.moveFile source target).node? q =
      if q = target then some (.file f) else if q = source then none else t.node? q := by
  have hsource : source ≠ [] := by
    rintro rfl
    rw [node?_nil] at hfile
    cases hfile
  unfold moveFile
  rw [file?_eq_some_iff.2 hfile]
  simp only [if_neg hne]
  split
  · rw [node?_stampParent, node?_set htarget, node?_remove hsource]
  · rw [node?_add htarget, node?_remove hsource]

theorem isDirectory_moveFile {q : Location} (hfile : t.node? source = some (.file f))
    (hnot : ¬ t.isDirectory target = true) (hq : t.isDirectory q = true) :
    (t.moveFile source target).isDirectory q = true := by
  by_cases hne : source = target
  · rw [moveFile, file?_eq_some_iff.2 hfile]
    simpa only [if_pos hne] using hq
  · have htarget : target ≠ [] := by
      rintro rfl
      exact hnot (isDirectory_iff.2 (node?_nil t))
    have hdir := isDirectory_iff.1 hq
    have hsource : q ≠ source := by
      rintro rfl
      rw [hfile] at hdir
      cases hdir
    have hgoal : q ≠ target := by
      rintro rfl
      exact hnot hq
    rw [isDirectory_iff, node?_moveFile hfile hne htarget, if_neg hgoal, if_neg hsource, hdir]

theorem exists_of_rename {t' : FileTree} {cwd : Location} {p p' : Path}
    (h : t.rename cwd p p' = .ok t') :
    ∃ loc goal f, t.node? loc = some (.file f) ∧ ¬ t.isDirectory goal = true ∧
      t' = t.moveFile loc goal := by
  unfold rename at h
  rcases hlookup : t.lookup cwd p with e | ⟨loc, node⟩
  · simp [hlookup, bind, Except.bind] at h
  rcases hlocate : t.locate cwd p' with e | goal
  · simp [hlookup, hlocate, bind, Except.bind] at h
  simp only [hlookup, hlocate, bind, Except.bind] at h
  cases node with
  | directory => cases h
  | file f =>
      by_cases hdir : t.isDirectory goal = true
      · simp [hdir] at h
      · simp only [if_neg hdir] at h
        exact ⟨loc, goal, f, (lookup_eq_ok_iff.1 hlookup).2, hdir, (Except.ok.inj h).symm⟩

end FileTree

namespace Disk

open Action FileTree

variable {around : Surroundings} {w w' : World} {p source target : Path}
  {R : World → World → Prop} {touched : Location → Prop}

/-- There is a file to be read at a path. -/
def Readable (p : Path) (t : FileTree) (cwd : Location) : Prop :=
  ∃ bytes, bytesAt p t cwd = .ok bytes

theorem readable_iff {t : FileTree} {cwd : Location} :
    Readable p t cwd ↔ isAskable p = true ∧ t.locate cwd p = .ok (goalOf cwd p) ∧
      t.isFile (goalOf cwd p) = true := by
  simp only [Readable, bytesAt_eq_ok_iff, isFile_iff]
  constructor
  · rintro ⟨bytes, hask, hloc, f, hf, -⟩
    exact ⟨hask, hloc, f, hf⟩
  · rintro ⟨hask, hloc, f, hf⟩
    exact ⟨f.bytes, hask, hloc, f, hf, rfl⟩

theorem Readable.answerAt {t : FileTree} {cwd : Location} (h : Readable p t cwd) :
    ∃ f, answerAt p t cwd = .ok (some (.file f)) := by
  obtain ⟨hask, hloc, hfile⟩ := readable_iff.1 h
  obtain ⟨f, hf⟩ := isFile_iff.1 hfile
  exact ⟨f, answerAt_eq_some_iff.2 ⟨hask, hloc, hf⟩⟩

theorem bytesAt_of_perform_write {bytes : List UInt8}
    (h : perform (change p fun t cwd => t.write cwd p bytes) around w = (.ok (), w')) :
    bytesAt p w'.tree around.directory = .ok bytes := by
  rw [perform_change] at h
  split at h
  · rename_i hask
    split at h
    · rename_i t ht
      cases h
      obtain ⟨loc, hloc, hnot, rfl⟩ := exists_of_write ht
      obtain rfl := (locate_eq_ok_iff.1 hloc).1
      have hne : goalOf around.directory p ≠ [] := by
        intro hnil
        rw [hnil] at hnot
        exact hnot (isDirectory_iff.2 (node?_nil _))
      refine bytesAt_eq_ok_iff.2 ⟨hask, locate_writeFile hloc hnot bytes, _, ?_,
        written_bytes w.tree (goalOf around.directory p) bytes⟩
      rw [node?_writeFile hne, if_pos rfl]
    · cases h
  · cases h

theorem bytesAt_of_perform_writeBytes {bytes : List UInt8}
    (h : perform (writeBytes p bytes) around w = (.ok (), w')) :
    bytesAt p w'.tree around.directory = .ok bytes := by
  obtain ⟨_, v, -, hwrite⟩ := perform_bind_eq_ok.1 h
  exact bytesAt_of_perform_write hwrite

section UnlinkIfPresent

theorem perform_unlinkIfPresent (p : Path) (around : Surroundings) (w : World) :
    perform (unlinkIfPresent p) around w =
      match answerAt p w.tree around.directory with
      | .error fault => (.error fault, w)
      | .ok none => (.ok (), w)
      | .ok (some _) => perform (unlink p) around w := by
  unfold unlinkIfPresent
  rw [perform_bind, perform_isOccupied]
  rcases answerAt p w.tree around.directory with fault | _ | node <;> rfl

theorem perform_unlink_file (h : Readable p w.tree around.directory) :
    perform (unlink p) around w =
      (.ok (), ⟨w.tree.remove (goalOf around.directory p),
        .changed (w.tree.remove (goalOf around.directory p)) :: w.history⟩) := by
  obtain ⟨hask, hloc, hfile⟩ := readable_iff.1 h
  rw [unlink, perform_change, if_pos hask, unlink_eq hloc hfile]

theorem perform_unlink_directory
    (h : answerAt p w.tree around.directory = .ok (some .directory)) :
    perform (unlink p) around w = (.error (.system (.on .isDirectory p.text)), w) := by
  obtain ⟨hask, hloc, hnode⟩ := answerAt_eq_some_iff.1 h
  rw [unlink, perform_change, if_pos hask]
  simp only [FileTree.unlink, lookup_eq_ok_iff.2 ⟨hloc, hnode⟩, bind, Except.bind]

theorem readable_of_answerAt {f : File}
    (h : answerAt p w.tree around.directory = .ok (some (.file f))) :
    Readable p w.tree around.directory := by
  obtain ⟨hask, hloc, hnode⟩ := answerAt_eq_some_iff.1 h
  exact readable_iff.2 ⟨hask, hloc, isFile_iff.2 ⟨f, hnode⟩⟩

theorem not_readable_of_unlinkIfPresent (p : Path) (around : Surroundings) (w : World) :
    ¬ Readable p (perform (unlinkIfPresent p) around w).2.tree around.directory := by
  rw [perform_unlinkIfPresent]
  rcases hanswer : answerAt p w.tree around.directory with fault | _ | _ | f
  · rintro hread
    obtain ⟨f, hf⟩ := hread.answerAt
    rw [hanswer] at hf
    cases hf
  · rintro hread
    obtain ⟨f, hf⟩ := hread.answerAt
    rw [hanswer] at hf
    cases hf
  · simp only [perform_unlink_directory hanswer]
    rintro hread
    obtain ⟨f, hf⟩ := hread.answerAt
    rw [hanswer] at hf
    cases hf
  · have hthere := readable_of_answerAt hanswer
    simp only [perform_unlink_file hthere]
    rintro hread
    obtain ⟨-, -, hfile⟩ := readable_iff.1 hread
    obtain ⟨g, hg⟩ := isFile_iff.1 hfile
    rw [node?_remove (ne_nil_of_isFile (readable_iff.1 hthere).2.2), if_pos rfl] at hg
    cases hg

theorem perform_unlinkIfPresent_error {fault : Fault}
    (h : perform (unlinkIfPresent p) around w = (.error fault, w')) : w' = w := by
  rw [perform_unlinkIfPresent] at h
  rcases hanswer : answerAt p w.tree around.directory with fault | _ | _ | f <;>
    simp only [hanswer] at h
  · cases h
    rfl
  · cases h
  · rw [perform_unlink_directory hanswer] at h
    cases h
    rfl
  · rw [perform_unlink_file (readable_of_answerAt hanswer)] at h
    cases h

theorem node?_of_unlinkIfPresent (hask : isAskable p = true)
    (hloc : w.tree.locate around.directory p = .ok (goalOf around.directory p))
    (h : perform (unlinkIfPresent p) around w = (.ok (), w')) (q : Location) :
    w'.tree.node? q = if q = goalOf around.directory p then none else w.tree.node? q := by
  have hanswer := answerAt_of_locate hask hloc
  rw [perform_unlinkIfPresent] at h
  rcases hnode : w.tree.node? (goalOf around.directory p) with _ | _ | f <;>
    simp only [hnode] at hanswer <;> simp only [hanswer] at h
  · cases h
    split
    · rename_i heq
      rw [heq, hnode]
    · rfl
  · rw [perform_unlink_directory hanswer] at h
    cases h
  · have hthere := readable_of_answerAt hanswer
    rw [perform_unlink_file hthere] at h
    cases h
    rw [node?_remove (ne_nil_of_isFile (readable_iff.1 hthere).2.2)]

theorem keeps_unlinkIfPresent [Passage R] (h : Keeps around R (unlink p)) :
    Keeps around R (unlinkIfPresent p) :=
  (Keeps.of_readOnly (readOnly_isOccupied p)).bind fun _ =>
    Keeps.ite (fun _ => h) fun _ => Keeps.pure _

end UnlinkIfPresent

section Rename

theorem perform_rename (source target : Path) (around : Surroundings) (w : World) :
    perform (rename source target) around w =
      if isAskable source && isAskable target then
        match w.tree.rename around.directory source target with
        | .ok t => (.ok (), ⟨t, .changed t :: w.history⟩)
        | .error e => (.error (.system (.across e source.text target.text)), w)
      else (.error (.value .embeddedNull), w) := by
  unfold rename
  rw [← Bool.not_and]
  by_cases hask : (isAskable source && isAskable target) = true
  · rcases hq : w.tree.rename around.directory source target with e | t <;>
      simp [hask, hq, perform_bind]
  · simp [hask, perform_bind]

theorem keeps_rename [AnyChange R] (source target : Path) :
    Keeps around R (rename source target) := by
  intro w
  rw [perform_rename]
  split
  · split
    · exact AnyChange.changed w _
    · exact Passage.refl w
  · exact Passage.refl w

theorem directoriesStay_rename (source target : Path) :
    Keeps around DirectoriesStay (rename source target) := by
  intro w
  rw [perform_rename]
  split
  · split
    · rename_i t ht
      obtain ⟨loc, goal, f, hfile, hnot, rfl⟩ := exists_of_rename ht
      exact fun q hq => isDirectory_moveFile hfile hnot hq
    · exact Passage.refl w
  · exact Passage.refl w

theorem perform_rename_free (hread : Readable source w.tree around.directory)
    (htarget : isAskable target = true)
    (hloc : w.tree.locate around.directory target = .ok (goalOf around.directory target))
    (hfree : w.tree.node? (goalOf around.directory target) = none) :
    ∃ w' f, w.tree.node? (goalOf around.directory source) = some (.file f) ∧
      perform (rename source target) around w = (.ok (), w') ∧
      ∀ q, w'.tree.node? q = if q = goalOf around.directory target then some (.file f)
        else if q = goalOf around.directory source then none else w.tree.node? q := by
  obtain ⟨hask, hsource, hfile⟩ := readable_iff.1 hread
  obtain ⟨f, hf⟩ := isFile_iff.1 hfile
  have hne : goalOf around.directory source ≠ goalOf around.directory target := by
    intro heq
    rw [heq, hfree] at hf
    cases hf
  have hnil : goalOf around.directory target ≠ [] := by
    intro hnil
    rw [hnil, node?_nil] at hfree
    cases hfree
  have hnot : ¬ w.tree.isDirectory (goalOf around.directory target) = true := by
    rw [isDirectory_iff, hfree]
    simp
  obtain ⟨t, ht⟩ : ∃ t, t = w.tree.moveFile (goalOf around.directory source)
    (goalOf around.directory target) := ⟨_, rfl⟩
  have hmoved : w.tree.rename around.directory source target = .ok t := by
    simp only [FileTree.rename, lookup_eq_ok_iff.2 ⟨hsource, hf⟩, hloc, bind, Except.bind,
      if_neg hnot, ht]
  refine ⟨⟨t, .changed t :: w.history⟩, f, hf, ?_, ?_⟩
  · rw [perform_rename, hask, htarget, hmoved]
    rfl
  · rw [ht]
    exact node?_moveFile hf hne hnil

end Rename

end Disk

end StagedBuild
