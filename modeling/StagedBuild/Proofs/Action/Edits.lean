import StagedBuild.Proofs.Action.Disk
import StagedBuild.Proofs.FileTree.Edits

/-!
The changes of the disk, made at the places where paths lead. Whatever changes the disk by paths
without taking directories away leaves it well formed, with every directory where it was.
-/

namespace StagedBuild.Disk

open Action

variable {α : Type} {around : Surroundings} {R : World → World → Prop} {p : Path}
  {w w' : World}

section Keeps

variable [Passage R]

theorem keeps_makeDirectory_at
    (h : ∀ (w : World) loc, isAskable p = true → w.tree.locate around.directory p = .ok loc →
      ¬ w.tree.isOccupied loc = true →
      R w ⟨w.tree.add loc .directory, .changed (w.tree.add loc .directory) :: w.history⟩) :
    Keeps around R (makeDirectory p) := by
  intro w
  rw [makeDirectory, perform_change]
  split
  · split
    · rename_i hask _ t ht
      obtain ⟨loc, hloc, hfree, rfl⟩ := FileTree.exists_of_makeDirectory ht
      exact h w loc hask hloc hfree
    · exact Passage.refl w
  · exact Passage.refl w

theorem keeps_unlink_at
    (h : ∀ (w : World) loc, isAskable p = true → w.tree.locate around.directory p = .ok loc →
      w.tree.isFile loc = true →
      R w ⟨w.tree.remove loc, .changed (w.tree.remove loc) :: w.history⟩) :
    Keeps around R (unlink p) := by
  intro w
  rw [unlink, perform_change]
  split
  · split
    · rename_i hask _ t ht
      obtain ⟨loc, hloc, hfile, rfl⟩ := FileTree.exists_of_unlink ht
      exact h w loc hask hloc hfile
    · exact Passage.refl w
  · exact Passage.refl w

theorem keeps_write_at {bytes : List UInt8}
    (h : ∀ (w : World) loc, isAskable p = true → w.tree.locate around.directory p = .ok loc →
      ¬ w.tree.isDirectory loc = true →
      R w ⟨w.tree.writeFile loc bytes, .changed (w.tree.writeFile loc bytes) :: w.history⟩) :
    Keeps around R (change p fun t cwd => t.write cwd p bytes) := by
  intro w
  rw [perform_change]
  split
  · split
    · rename_i hask _ t ht
      obtain ⟨loc, hloc, hnot, rfl⟩ := FileTree.exists_of_write ht
      exact h w loc hask hloc hnot
    · exact Passage.refl w
  · exact Passage.refl w

end Keeps

/-- The disk is well formed afterwards if it was before, and every directory is still there. The
one from which paths start has to be among them. -/
def Sound (dir : Location) (w w' : World) : Prop :=
  w.tree.WellFormed → w.tree.isDirectory dir = true →
    w'.tree.WellFormed ∧ ∀ loc, w.tree.isDirectory loc = true → w'.tree.isDirectory loc = true

namespace Sound

instance (dir : Location) : Passage (Sound dir) where
  refl _ := fun hw _ => ⟨hw, fun _ h => h⟩
  trans := by
    intro u v w huv hvw hu hcwd
    obtain ⟨hv, hdirs⟩ := huv hu hcwd
    obtain ⟨hw, hdirs'⟩ := hvw hv (hdirs _ hcwd)
    exact ⟨hw, fun loc hloc => hdirs' loc (hdirs loc hloc)⟩

end Sound

/-- From one world to another every directory stays. -/
def DirectoriesStay (w w' : World) : Prop :=
  ∀ q, w.tree.isDirectory q = true → w'.tree.isDirectory q = true

section DirectoriesStay

instance : OfTree DirectoriesStay where
  refl _ := fun _ h => h
  trans h h' := fun q hq => h' q (h q hq)
  same _ _ h := fun q hq => by rwa [h]

theorem directoriesStay_makeDirectory (p : Path) :
    Keeps around DirectoriesStay (makeDirectory p) :=
  keeps_makeDirectory_at fun _ _ _ _ hfree _ hq => FileTree.isDirectory_add hq hfree

theorem directoriesStay_unlink (p : Path) : Keeps around DirectoriesStay (unlink p) :=
  keeps_unlink_at fun _ _ _ _ hfile _ hq => FileTree.isDirectory_remove hq hfile

theorem directoriesStay_write (p : Path) (bytes : List UInt8) :
    Keeps around DirectoriesStay (change p fun t cwd => t.write cwd p bytes) :=
  keeps_write_at fun _ _ _ _ hnot _ hq => FileTree.isDirectory_writeFile hq hnot bytes

end DirectoriesStay

/-- A path starts from the root or from a directory. -/
def StartsFrom (cwd dir : Location) (p : Path) : Prop :=
  FileTree.start cwd p = [] ∨ FileTree.start cwd p = dir

theorem startsFrom_self (cwd : Location) (p : Path) : StartsFrom cwd cwd p := by
  unfold StartsFrom FileTree.start
  split
  · exact .inl rfl
  · exact .inr rfl

theorem StartsFrom.of_absolute {cwd dir : Location} (h : p.isAbsolute = true) :
    StartsFrom cwd dir p :=
  .inl (if_pos h)

theorem StartsFrom.parent {cwd dir : Location} (h : StartsFrom cwd dir p) :
    StartsFrom cwd dir p.parent :=
  h

theorem StartsFrom.congr {cwd dir : Location} {q : Path} (h : StartsFrom cwd dir p)
    (hsame : q.isAbsolute = p.isAbsolute) : StartsFrom cwd dir q := by
  unfold StartsFrom FileTree.start at h ⊢
  rwa [hsame]

theorem StartsFrom.isDirectory {t : FileTree} {cwd dir : Location} (h : StartsFrom cwd dir p)
    (hdir : t.isDirectory dir = true) : t.isDirectory (FileTree.start cwd p) = true := by
  rcases h with h | h
  · rw [h]
    exact FileTree.isDirectory_iff.2 (FileTree.node?_nil t)
  · rw [h]
    exact hdir

section Sound

variable {dir : Location} (hp : StartsFrom around.directory dir p)

include hp

theorem sound_makeDirectory : Keeps around (Sound dir) (makeDirectory p) := by
  refine keeps_makeDirectory_at fun w loc hask hloc hfree hw hdir => ⟨?_, fun q hq => ?_⟩
  · refine hw.makeDirectory (hp.isDirectory hdir) hask ?_
    rw [FileTree.makeDirectory_eq hloc, if_neg hfree]
  · exact FileTree.isDirectory_add hq hfree

omit hp in
theorem sound_unlink (p : Path) : Keeps around (Sound dir) (unlink p) := by
  refine keeps_unlink_at fun w loc hask hloc hfile hw _ => ⟨?_, fun q hq => ?_⟩
  · exact hw.unlink (FileTree.unlink_eq hloc hfile)
  · exact FileTree.isDirectory_remove hq hfile

theorem sound_write (bytes : List UInt8) :
    Keeps around (Sound dir) (change p fun t cwd => t.write cwd p bytes) := by
  refine keeps_write_at fun w loc hask hloc hnot hw hdir => ⟨?_, fun q hq => ?_⟩
  · have hwrite : w.tree.write around.directory p bytes = .ok (w.tree.writeFile loc bytes) := by
      rw [FileTree.write_eq hloc, if_neg hnot]
    exact hw.write (hp.isDirectory hdir) hask hwrite
  · exact FileTree.isDirectory_writeFile hq hnot bytes

theorem sound_writeBytes (bytes : List UInt8) :
    Keeps around (Sound dir) (writeBytes p bytes) :=
  (sound_write hp []).bind fun _ => sound_write hp bytes

theorem sound_appendBytes (bytes : List UInt8) :
    Keeps around (Sound dir) (appendBytes p bytes) :=
  (Keeps.of_readOnly (readOnly_readBytes p)).bind fun _ => sound_write hp _

theorem sound_makeDirectories : Keeps around (Sound dir) (makeDirectories p) :=
  keeps_makeDirectoriesWithin _ hp (fun _ hq => hq.parent) fun _ hq => sound_makeDirectory hq

end Sound

section Answers

variable {t : FileTree} {cwd loc : Location} {node : Node}

theorem answerAt_of_locate (hask : isAskable p = true) (hloc : t.locate cwd p = .ok loc) :
    answerAt p t cwd = .ok (t.node? loc) := by
  rw [answerAt, if_pos hask]
  rcases hnode : t.node? loc with _ | node
  · have hlookup : t.lookup cwd p = .error .noEntry := by
      simp [FileTree.lookup, hloc, hnode, bind, Except.bind]
    simp [hlookup, SystemError.isAbsence]
  · rw [FileTree.lookup_eq_ok_iff.2 ⟨hloc, hnode⟩]

theorem answerAt_eq_some_iff :
    answerAt p t cwd = .ok (some node) ↔
      isAskable p = true ∧ t.locate cwd p = .ok (FileTree.goalOf cwd p) ∧
        t.node? (FileTree.goalOf cwd p) = some node := by
  constructor
  · intro h
    unfold answerAt at h
    split at h
    · rename_i hask
      split at h
      · rename_i loc n hlookup
        obtain ⟨hloc, hnode⟩ := FileTree.lookup_eq_ok_iff.1 hlookup
        obtain rfl := (FileTree.locate_eq_ok_iff.1 hloc).1
        cases h
        exact ⟨hask, hloc, hnode⟩
      · split at h <;> cases h
    · cases h
  · rintro ⟨hask, hloc, hnode⟩
    rw [answerAt_of_locate hask hloc, hnode]

theorem bytesAt_eq_ok_iff {bytes : List UInt8} :
    bytesAt p t cwd = .ok bytes ↔
      isAskable p = true ∧ t.locate cwd p = .ok (FileTree.goalOf cwd p) ∧
        ∃ f, t.node? (FileTree.goalOf cwd p) = some (.file f) ∧ f.bytes = bytes := by
  unfold bytesAt
  by_cases hask : isAskable p = true
  · rw [if_pos hask]
    rcases hlookup : t.lookup cwd p with e | ⟨loc, node⟩
    · simp only [FileTree.openFile, hlookup, bind, Except.bind, reduceCtorEq, false_iff, not_and]
      rintro - hloc ⟨f, hnode, -⟩
      rw [FileTree.lookup_eq_ok_iff.2 ⟨hloc, hnode⟩] at hlookup
      cases hlookup
    · obtain ⟨hloc, hnode⟩ := FileTree.lookup_eq_ok_iff.1 hlookup
      obtain rfl := (FileTree.locate_eq_ok_iff.1 hloc).1
      cases node <;>
        simp [FileTree.openFile, hlookup, hask, hloc, hnode, bind, Except.bind]
  · simp [hask]

theorem bytesAt_congr {t' : FileTree} (h : ∀ v ∈ FileTree.passedBy cwd p, t.node? v = t'.node? v)
    (hgoal : t.node? (FileTree.goalOf cwd p) = t'.node? (FileTree.goalOf cwd p)) :
    bytesAt p t cwd = bytesAt p t' cwd := by
  simp only [bytesAt, FileTree.openFile, FileTree.lookup_congr h hgoal]

theorem bytesAt_of_directoriesStay {w w' : World} {bytes : List UInt8}
    (hdirs : DirectoriesStay w w')
    (hsame : ∀ node, w.tree.node? (FileTree.goalOf cwd p) = some node →
      w'.tree.node? (FileTree.goalOf cwd p) = some node)
    (hbytes : bytesAt p w.tree cwd = .ok bytes) : bytesAt p w'.tree cwd = .ok bytes := by
  obtain ⟨hask, hloc, f, hf, hbytes⟩ := bytesAt_eq_ok_iff.1 hbytes
  obtain ⟨-, htext, hpassed, hsteps⟩ := FileTree.locate_eq_ok_iff.1 hloc
  exact bytesAt_eq_ok_iff.2 ⟨hask, FileTree.locate_eq_ok_iff.2 ⟨rfl, htext,
    fun q hq => hdirs q (hpassed q hq), hsteps⟩, f, hsame _ hf, hbytes⟩

end Answers

theorem locate_writeFile {t : FileTree} {cwd loc : Location} (hloc : t.locate cwd p = .ok loc)
    (hnot : ¬ t.isDirectory loc = true) (bytes : List UInt8) :
    (t.writeFile loc bytes).locate cwd p = .ok loc := by
  have hne : loc ≠ [] := by
    rintro rfl
    exact hnot (FileTree.isDirectory_iff.2 (FileTree.node?_nil _))
  obtain ⟨rfl, htext, hpassed, hfits⟩ := FileTree.locate_eq_ok_iff.1 hloc
  refine FileTree.locate_eq_ok_iff.2 ⟨rfl, htext, fun v hv => ?_, hfits⟩
  rw [FileTree.isDirectory_iff, FileTree.node?_writeFile hne, if_neg]
  · exact FileTree.isDirectory_iff.1 (hpassed v hv)
  · rintro rfl
    exact hnot (hpassed _ hv)

theorem perform_writeBytes {loc : Location} (hask : isAskable p = true)
    (hloc : w.tree.locate around.directory p = .ok loc) (bytes : List UInt8) :
    w.tree.isDirectory loc = true ∧
        perform (writeBytes p bytes) around w =
          (.error (.system (.on .isDirectory p.text)), w) ∨
      ¬ w.tree.isDirectory loc = true ∧ ∃ (w' : World) (f : File),
        perform (writeBytes p bytes) around w = (.ok (), w') ∧ f.bytes = bytes ∧
          ∀ q, w'.tree.node? q = if q = loc then some (.file f) else w.tree.node? q := by
  by_cases hdir : w.tree.isDirectory loc = true
  · refine .inl ⟨hdir, perform_bind_error ?_⟩
    rw [truncate, perform_change, if_pos hask, FileTree.write_eq hloc, if_pos hdir]
  · have hne : loc ≠ [] := by
      rintro rfl
      exact hdir (FileTree.isDirectory_iff.2 (FileTree.node?_nil _))
    obtain ⟨t, ht⟩ : ∃ t, t = w.tree.writeFile loc [] := ⟨_, rfl⟩
    have hfirst : perform (truncate p) around w = (.ok (), ⟨t, .changed t :: w.history⟩) := by
      rw [truncate, perform_change, if_pos hask, FileTree.write_eq hloc, if_neg hdir, ht]
    have hnot : ¬ t.isDirectory loc = true := by
      rw [ht, FileTree.isDirectory_iff, FileTree.node?_writeFile hne, if_pos rfl]
      simp
    have hsecond : t.write around.directory p bytes = .ok (t.writeFile loc bytes) := by
      rw [FileTree.write_eq (ht ▸ locate_writeFile hloc hdir []), if_neg hnot]
    refine .inr ⟨hdir, ⟨t.writeFile loc bytes, .changed (t.writeFile loc bytes) ::
      .changed t :: w.history⟩, t.written loc bytes, ?_, FileTree.written_bytes _ _ _,
      fun q => ?_⟩
    · rw [writeBytes, perform_bind_ok hfirst, perform_change, if_pos hask]
      simp only [hsecond]
    · rw [FileTree.node?_writeFile hne]
      split
      · rfl
      · rw [ht, FileTree.node?_writeFile hne, if_neg ‹_›]

theorem perform_writeBytes_error {bytes : List UInt8} {fault : Fault}
    (h : perform (writeBytes p bytes) around w = (.error fault, w')) : w' = w := by
  by_cases hask : isAskable p = true
  · rcases hloc : w.tree.locate around.directory p with e | loc
    · have hfirst : perform (truncate p) around w = (.error (.system (.on e p.text)), w) := by
        rw [truncate, perform_change, if_pos hask]
        simp [FileTree.write, hloc, bind, Except.bind]
      rw [writeBytes, perform_bind_error hfirst] at h
      cases h
      rfl
    · rcases perform_writeBytes hask hloc bytes with ⟨-, herror⟩ | ⟨-, v, f, hok, -⟩
      · rw [herror] at h
        cases h
        rfl
      · rw [hok] at h
        cases h
  · have hfirst : perform (truncate p) around w = (.error (.value .embeddedNull), w) := by
      rw [truncate, perform_change, if_neg hask]
    rw [writeBytes, perform_bind_error hfirst] at h
    cases h
    rfl

/-- A path leads to a directory. -/
def LeadsToDirectory (p : Path) (t : FileTree) (cwd : Location) : Prop :=
  answerAt p t cwd = .ok (some .directory)

theorem leads_of_makeDirectory {v : World}
    (h : perform (makeDirectory p) around w = (.ok (), v)) :
    LeadsToDirectory p v.tree around.directory := by
  rw [makeDirectory, perform_change] at h
  split at h
  · rename_i hask
    split at h
    · rename_i t ht
      cases h
      obtain ⟨loc, hloc, hfree, rfl⟩ := FileTree.exists_of_makeDirectory ht
      obtain ⟨rfl, htext, hpassed, hfits⟩ := FileTree.locate_eq_ok_iff.1 hloc
      have hne : FileTree.goalOf around.directory p ≠ [] := by
        intro hnil
        rw [hnil] at hfree
        exact hfree (FileTree.isOccupied_iff.2 ⟨_, FileTree.node?_nil _⟩)
      refine answerAt_eq_some_iff.2 ⟨hask, FileTree.locate_eq_ok_iff.2
        ⟨rfl, htext, fun q hq => ?_, hfits⟩, by rw [FileTree.node?_add hne, if_pos rfl]⟩
      rw [FileTree.isDirectory_iff, FileTree.node?_add hne]
      split
      · rfl
      · exact FileTree.isDirectory_iff.1 (hpassed q hq)
    · cases h
  · cases h

theorem leads_of_isDirectory {v : World}
    (h : perform (isDirectory p) around w = (.ok true, v)) :
    v = w ∧ LeadsToDirectory p w.tree around.directory := by
  rw [perform_isDirectory] at h
  obtain ⟨hanswer, hv⟩ := Prod.mk.inj h
  refine ⟨hv.symm, ?_⟩
  rcases hp : answerAt p w.tree around.directory with fault | node
  · rw [hp] at hanswer
    cases hanswer
  · rw [hp] at hanswer
    simp only [Except.map, Except.ok.injEq, beq_iff_eq] at hanswer
    rw [LeadsToDirectory, hp, hanswer]

theorem leads_of_makeDirectoriesWithin {bound : Nat} {v : World}
    (h : perform (makeDirectoriesWithin bound p) around w = (.ok (), v)) :
    LeadsToDirectory p v.tree around.directory := by
  have hunless : ∀ {fault : Fault} {u v : World},
      perform (do if ← isDirectory p then return () else throw fault) around u = (.ok (), v) →
      LeadsToDirectory p v.tree around.directory := by
    intro fault u v hv
    obtain ⟨there, u', hthere, hv⟩ := perform_bind_eq_ok.1 hv
    cases there with
    | false => cases hv
    | true =>
        cases hv
        obtain ⟨rfl, hleads⟩ := leads_of_isDirectory hthere
        exact hleads
  have hmade : ∀ {u v : World},
      perform (makeDirectoriesWithin.makeDirectoryUnlessThere p) around u = (.ok (), v) →
      LeadsToDirectory p v.tree around.directory := by
    intro u v hv
    unfold makeDirectoriesWithin.makeDirectoryUnlessThere at hv
    obtain ⟨ended, u', hended, hv⟩ := perform_bind_eq_ok.1 hv
    rw [perform_outcome] at hended
    split at hv
    · cases hv
      obtain ⟨hok, rfl⟩ := Prod.mk.inj hended
      exact leads_of_makeDirectory (Prod.ext (Except.ok.inj hok) rfl)
    · exact hunless hv
    · cases hv
  cases bound <;>
  · unfold makeDirectoriesWithin at h
    obtain ⟨ended, u, hended, h⟩ := perform_bind_eq_ok.1 h
    rw [perform_outcome] at hended
    split at h
    · cases h
      obtain ⟨hok, rfl⟩ := Prod.mk.inj hended
      exact leads_of_makeDirectory (Prod.ext (Except.ok.inj hok) rfl)
    · first
      | cases h
      | obtain ⟨_, u', _, h⟩ := perform_bind_eq_ok.1 h
        exact hmade h
    · exact hunless h
    · cases h

theorem leads_of_makeDirectories {v : World}
    (h : perform (makeDirectories p) around w = (.ok (), v)) :
    LeadsToDirectory p v.tree around.directory :=
  leads_of_makeDirectoriesWithin h

end StagedBuild.Disk
