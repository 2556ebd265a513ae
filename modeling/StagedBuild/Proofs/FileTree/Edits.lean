import StagedBuild.Action.Disk
import StagedBuild.Proofs.FileTree.Follow
import StagedBuild.Proofs.Path.Text

/-!
The edits of a tree by path: where they are made, what they leave at each location, and that a tree
stays well formed. The place that a path starts from has to be a directory.
-/

namespace StagedBuild

namespace FileTree

variable {t t' : FileTree} {cwd loc : Location} {p : Path}

section Directories

variable {q source target : Location} (hq : t.isDirectory q = true)

include hq

theorem isDirectory_add (hfree : ¬ t.isOccupied loc = true) :
    (t.add loc .directory).isDirectory q = true := by
  have hne : loc ≠ [] := by
    rintro rfl
    exact hfree (isOccupied_iff.2 ⟨_, node?_nil _⟩)
  rw [isDirectory_iff, node?_add hne]
  split
  · rfl
  · exact isDirectory_iff.1 hq

theorem isDirectory_remove (hfile : t.isFile loc = true) : (t.remove loc).isDirectory q = true := by
  rw [isDirectory_iff, node?_remove (ne_nil_of_isFile hfile), if_neg]
  · exact isDirectory_iff.1 hq
  · rintro rfl
    exact not_isFile_of_isDirectory hq hfile

theorem isDirectory_writeFile (hnot : ¬ t.isDirectory loc = true) (bytes : List UInt8) :
    (t.writeFile loc bytes).isDirectory q = true := by
  have hne : loc ≠ [] := by
    rintro rfl
    exact hnot (isDirectory_iff.2 (node?_nil _))
  rw [isDirectory_iff, node?_writeFile hne, if_neg]
  · exact isDirectory_iff.1 hq
  · rintro rfl
    exact hnot hq

end Directories

theorem exists_parent_of_locate (ht : t.WellFormed) (hstart : t.isDirectory (start cwd p) = true)
    (hask : Disk.isAskable p = true) (hloc : t.locate cwd p = .ok loc)
    (hnot : ¬ t.isDirectory loc = true) :
    ∃ above name, loc = above ++ [name] ∧ t.isDirectory above = true ∧
      isEntryName name = true := by
  obtain ⟨hgoal, -, hpassed, hfits⟩ := locate_eq_ok_iff.1 hloc
  rw [goalOf] at hgoal
  rw [passedBy] at hpassed
  rcases List.eq_nil_or_concat p.steps with hnil | ⟨front, last, hsteps⟩
  · rw [hnil, reach] at hgoal
    exact absurd (hgoal ▸ hstart) hnot
  · rw [List.concat_eq_append] at hsteps
    rw [hsteps, reach_append, reach, reach] at hgoal
    have hdir : t.isDirectory (reach (start cwd p) front) = true := by
      refine hpassed _ ?_
      rw [hsteps, passed_append]
      simp [passed]
    by_cases hup : last = ".."
    · -- one step up from a directory there is a directory
      rw [stepFrom, if_pos hup] at hgoal
      refine absurd ?_ hnot
      rw [hgoal]
      rcases List.eq_nil_or_concat (reach (start cwd p) front) with hroot | ⟨above, name, hname⟩
      · rw [hroot]
        exact isDirectory_iff.2 (node?_nil t)
      · rw [List.concat_eq_append] at hname
        rw [hname] at hdir ⊢
        rw [List.dropLast_concat]
        exact ht.placed above name (isOccupied_of_isDirectory hdir)
    · rw [stepFrom, if_neg hup] at hgoal
      refine ⟨_, last, hgoal, hdir, ?_⟩
      have hmem : last ∈ p.steps := by simp [hsteps]
      have hnull : '\x00' ∉ last.toList := by
        intro hmem'
        have := Path.mem_toList_text hmem hmem'
        simp [Disk.isAskable, this] at hask
      have hshort := hfits last hmem
      simp only [fits, Bool.or_eq_true, beq_iff_eq, hup, false_or] at hshort
      simp [isEntryName, p.steps_isStep last hmem, hup, hnull, of_decide_eq_true hshort]

theorem write_eq (hloc : t.locate cwd p = .ok loc) (bytes : List UInt8) :
    t.write cwd p bytes =
      if t.isDirectory loc then .error .isDirectory else .ok (t.writeFile loc bytes) := by
  simp [write, hloc, bind, Except.bind]

theorem makeDirectory_eq (hloc : t.locate cwd p = .ok loc) :
    t.makeDirectory cwd p =
      if t.isOccupied loc then .error .occupied else .ok (t.add loc .directory) := by
  simp [makeDirectory, hloc, bind, Except.bind]

theorem exists_of_write (h : t.write cwd p bytes = .ok t') :
    ∃ loc, t.locate cwd p = .ok loc ∧ ¬ t.isDirectory loc = true ∧ t' = t.writeFile loc bytes := by
  rcases hloc : t.locate cwd p with e | loc
  · simp [write, hloc, bind, Except.bind] at h
  · rw [write_eq hloc] at h
    split at h
    · cases h
    · exact ⟨loc, rfl, ‹_›, (Except.ok.inj h).symm⟩

theorem exists_of_makeDirectory (h : t.makeDirectory cwd p = .ok t') :
    ∃ loc, t.locate cwd p = .ok loc ∧ ¬ t.isOccupied loc = true ∧ t' = t.add loc .directory := by
  rcases hloc : t.locate cwd p with e | loc
  · simp [makeDirectory, hloc, bind, Except.bind] at h
  · rw [makeDirectory_eq hloc] at h
    split at h
    · cases h
    · exact ⟨loc, rfl, ‹_›, (Except.ok.inj h).symm⟩

theorem exists_of_unlink (h : t.unlink cwd p = .ok t') :
    ∃ loc, t.locate cwd p = .ok loc ∧ t.isFile loc = true ∧ t' = t.remove loc := by
  rcases hlookup : t.lookup cwd p with e | ⟨loc, node | f⟩
  · simp [unlink, hlookup, bind, Except.bind] at h
  · simp [unlink, hlookup, bind, Except.bind] at h
  · obtain ⟨hloc, hnode⟩ := lookup_eq_ok_iff.1 hlookup
    simp only [unlink, hlookup, bind, Except.bind, Except.ok.injEq] at h
    exact ⟨loc, hloc, isFile_iff.2 ⟨f, hnode⟩, h.symm⟩

theorem exists_of_removeDirectory (h : t.removeDirectory cwd p = .ok t') :
    ∃ loc, t.locate cwd p = .ok loc ∧ loc ≠ [] ∧ t' = t.remove loc := by
  rcases hlookup : t.lookup cwd p with e | ⟨loc, node⟩
  · simp [removeDirectory, hlookup, bind, Except.bind] at h
  · obtain ⟨hloc, -⟩ := lookup_eq_ok_iff.1 hlookup
    simp only [removeDirectory, hlookup, bind, Except.bind] at h
    split at h
    · cases h
    split at h
    · cases h
    split at h
    · cases h
    split at h
    · cases h
    split at h
    · cases h
    · exact ⟨loc, hloc, ‹_›, (Except.ok.inj h).symm⟩

theorem unlink_eq (hloc : t.locate cwd p = .ok loc) (hfile : t.isFile loc = true) :
    t.unlink cwd p = .ok (t.remove loc) := by
  obtain ⟨f, hf⟩ := isFile_iff.1 hfile
  have hlookup : t.lookup cwd p = .ok (loc, .file f) := lookup_eq_ok_iff.2 ⟨hloc, hf⟩
  simp [unlink, hlookup, bind, Except.bind]

theorem WellFormed.writeFile (ht : t.WellFormed) {name : String} (hdir : t.isDirectory loc = true)
    (hname : isEntryName name = true) (hnot : ¬ t.isDirectory (loc ++ [name]) = true)
    (bytes : List UInt8) : (t.writeFile (loc ++ [name]) bytes).WellFormed :=
  ht.put hdir hname (fun hd => absurd hd hnot) fun q => node?_writeFile (by simp) q bytes

theorem WellFormed.write (ht : t.WellFormed) (hstart : t.isDirectory (start cwd p) = true)
    (hask : Disk.isAskable p = true) {bytes : List UInt8} (h : t.write cwd p bytes = .ok t') :
    t'.WellFormed := by
  obtain ⟨loc, hloc, hnot, rfl⟩ := exists_of_write h
  obtain ⟨above, name, rfl, hdir, hname⟩ := exists_parent_of_locate ht hstart hask hloc hnot
  exact ht.writeFile hdir hname hnot bytes

theorem WellFormed.makeDirectory (ht : t.WellFormed)
    (hstart : t.isDirectory (start cwd p) = true) (hask : Disk.isAskable p = true)
    (h : t.makeDirectory cwd p = .ok t') : t'.WellFormed := by
  obtain ⟨loc, hloc, hfree, rfl⟩ := exists_of_makeDirectory h
  obtain ⟨above, name, rfl, hdir, hname⟩ := exists_parent_of_locate ht hstart hask hloc
    fun hd => hfree (isOccupied_of_isDirectory hd)
  exact ht.put hdir hname (fun _ => rfl) fun q => node?_add (by simp) q .directory

theorem WellFormed.unlink (ht : t.WellFormed) (h : t.unlink cwd p = .ok t') : t'.WellFormed := by
  obtain ⟨loc, -, hfile, rfl⟩ := exists_of_unlink h
  exact ht.take (fun name => ht.not_isOccupied_below_file hfile (by simp))
    fun q => node?_remove (ne_nil_of_isFile hfile) q

end FileTree

end StagedBuild
